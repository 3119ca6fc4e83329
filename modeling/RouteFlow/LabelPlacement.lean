import RouteFlow.SearchTree

/-!
# Where the labels go

No label is handed out twice, and on the way up each link moves its labels to one link. So a label is at
most once on each link, whatever the tables are. For one controller it is on the links of a shortest path.
-/

namespace RouteFlow

open Store Relation

/-! ## No label is doubled -/

def Link.labels (k : Link) : List Nat := k.fastPaths.map Prod.fst

@[simp] theorem Link.labels_addPaths (k : Link) (ps : List (Nat × Nat)) :
    (k.addPaths ps).labels = k.labels ++ ps.map Prod.fst := by
  cases k <;> simp [labels, addPaths, fastPaths]

@[simp] theorem Link.labels_setMaster (k : Link) (m : Option Int) : (k.setMaster m).labels = k.labels := by
  cases k <;> rfl

/-- On no link of the tables a label is doubled. -/
structure FpState.Single (st : FpState) : Prop where
  fp : ∀ r ∈ st.fpconf.rows, (Link.fp r).labels.Nodup
  isl : ∀ r ∈ st.islconf.rows, (Link.isl r).labels.Nodup

theorem FpState.Single.setLink {st : FpState} (h : st.Single) {k : Link} (hk : k.labels.Nodup) :
    (st.setLink k).Single := by
  cases k with
  | fp r =>
    refine ⟨fun q hq => ?_, h.isl⟩
    obtain ⟨x, hx, rfl⟩ := List.mem_map.mp hq
    split
    · exact hk
    · exact h.fp x hx
  | isl r =>
    refine ⟨h.fp, fun q hq => ?_⟩
    obtain ⟨x, hx, rfl⟩ := List.mem_map.mp hq
    split
    · exact hk
    · exact h.isl x hx

theorem labelPorts_labels {st st' : FpState} {link link' : Link} {b : Bool} {ports : List (Row RFConfigEntry)}
    (h : labelPorts st link ports = .ok (st', link', b)) :
    ∃ n, link'.labels = link.labels ++ List.range' st.label n ∧ st'.label = st.label + n ∧
      st'.fpconf = st.fpconf ∧ st'.islconf = st.islconf := by
  induction ports generalizing st link with
  | nil =>
    obtain ⟨rfl, rfl, -⟩ : st = st' ∧ link = link' ∧ true = b := by simpa [labelPorts] using h
    exact ⟨0, by simp, rfl, rfl, rfl⟩
  | cons port ports ih =>
    rw [labelPorts] at h
    split at h
    · obtain ⟨rfl, rfl, -⟩ : st = st' ∧ link = link' ∧ false = b := by simpa using h
      exact ⟨0, by simp, rfl, rfl, rfl⟩
    · unfold allocateLabel at h
      split at h
      · cases h
      · obtain ⟨n, hl, hn, hf, hi⟩ := ih h
        refine ⟨n + 1, ?_, ?_, hf, hi⟩
        · rw [hl, Link.labels_addPaths, List.range'_succ, List.append_assoc]
          rfl
        · rw [hn]
          dsimp only
          omega

theorem nextIsls_labels (ct my : Nat) {st : FpState} (h : st.Single) (rs : List (Row RFISLConfEntry)) :
    (nextIsls st ct my rs).1.Single ∧ (nextIsls st ct my rs).1.label = st.label ∧
      ∀ item ∈ (nextIsls st ct my rs).2, item.link.labels = [] := by
  induction rs generalizing st with
  | nil => exact ⟨h, rfl, by simp [nextIsls]⟩
  | cons r rs ih =>
    rw [nextIsls]
    split
    · exact ih h
    · obtain ⟨hs, hl, hn⟩ := ih (h.setLink (k := .isl ⟨r.id, { r.val with fastPaths := some [] }⟩) .nil)
      refine ⟨hs, hl, List.forall_mem_cons.mpr ⟨rfl, hn⟩⟩

theorem visit_labels {o : Order} {st st' : FpState} {item item' : CheckItem} {next : List CheckItem}
    (h : visit o st item = .ok (st', item', next)) (hs : st.Single) (hi : item.link.labels = []) :
    ∃ n, item'.link.labels = List.range' st.label n ∧ st'.label = st.label + n ∧ st'.Single ∧
      ∀ x ∈ next, x.link.labels = [] := by
  obtain ⟨my, -, h⟩ := bind_eq_ok.mp h
  obtain ⟨⟨st₁, link, nobreak⟩, hports, h⟩ := bind_eq_ok.mp h
  obtain ⟨n, hl, hn, hf, hisl⟩ := labelPorts_labels hports
  rw [hi, List.nil_append] at hl
  have hnodup : ∀ m, (link.setMaster m).labels.Nodup := fun m => by
    rw [Link.labels_setMaster, hl]
    exact List.nodup_range'
  have hs₁ : ∀ m, (st₁.setLink (link.setMaster m)).Single := fun m =>
    FpState.Single.setLink ⟨hf ▸ hs.fp, hisl ▸ hs.isl⟩ (hnodup m)
  have hlabel : ∀ m, (st₁.setLink (link.setMaster m)).label = st₁.label := fun m => by
    cases link <;> rfl
  dsimp only at h
  split at h
  · obtain ⟨hs₂, hl₂, hnext⟩ := nextIsls_labels item.ctId my (hs₁ (some item.parentDpid))
      (RFISLConf.getEntriesByDpid o (st₁.setLink (link.setMaster (some item.parentDpid))).islconf
        item.ctId my)
    obtain ⟨rfl, rfl, rfl⟩ : _ ∧ _ ∧ _ := by simpa [pure, Except.pure] using h
    exact ⟨n, by rw [Link.labels_setMaster, hl], by rw [hl₂, hlabel, hn], hs₂, hnext⟩
  · obtain ⟨rfl, rfl, rfl⟩ : _ ∧ _ ∧ _ := by simpa [pure, Except.pure] using h
    exact ⟨n, by rw [Link.labels_setMaster, hl], by rw [hlabel, hn], hs₁ none, by simp⟩

/-- The labels of all links of a level together. -/
def levelLabels (items : List CheckItem) : List Nat := items.flatMap fun x => x.link.labels

theorem visitAll_labels {o : Order} {st st' : FpState} {items items' next : List CheckItem}
    (h : visitAll o st items = .ok (st', items', next)) (hs : st.Single)
    (hi : ∀ x ∈ items, x.link.labels = []) :
    ∃ n, levelLabels items' = List.range' st.label n ∧ st'.label = st.label + n ∧ st'.Single ∧
      ∀ x ∈ next, x.link.labels = [] := by
  induction items generalizing st items' next with
  | nil =>
    obtain ⟨rfl, rfl, rfl⟩ : _ ∧ _ ∧ _ := by simpa [visitAll] using h
    exact ⟨0, rfl, rfl, hs, by simp⟩
  | cons item items ih =>
    obtain ⟨hitem, hrest⟩ := List.forall_mem_cons.mp hi
    obtain ⟨⟨st₁, item₁, next₁⟩, hvisit, h⟩ := bind_eq_ok.mp h
    obtain ⟨⟨st₂, rest, more⟩, hall, h⟩ := bind_eq_ok.mp h
    obtain ⟨rfl, rfl, rfl⟩ : _ ∧ _ ∧ _ := by simpa [pure, Except.pure] using h
    obtain ⟨n, hl, hn, hs₁, hnext⟩ := visit_labels hvisit hs hitem
    obtain ⟨m, hl', hm, hs₂, hmore⟩ := ih hall hs₁ hrest
    refine ⟨n + m, ?_, ?_, hs₂, List.forall_mem_append.mpr ⟨hnext, hmore⟩⟩
    · rw [levelLabels, List.flatMap_cons, hl, ← List.range'_append_1, ← hn, ← hl']
      rfl
    · rw [hm, hn, Nat.add_assoc]

theorem seek_items {d : Int} {done done' rest rest' : List CheckItem} {x x' : CheckItem}
    (h : seek d done x rest = .ok (done', x', rest')) : done' ++ x' :: rest' = done ++ x :: rest := by
  induction rest generalizing done x with
  | nil =>
    rw [seek] at h
    split at h
    · obtain ⟨rfl, rfl, rfl⟩ : _ ∧ _ ∧ _ := by simpa using h
      rfl
    · cases h
  | cons y rest ih =>
    rw [seek] at h
    split at h
    · obtain ⟨rfl, rfl, rfl⟩ : _ ∧ _ ∧ _ := by simpa using h
      rfl
    · rw [ih h, List.append_assoc]
      rfl

theorem pullUp_labels {st st' : FpState} {done rest ns items' : List CheckItem} {x : CheckItem}
    (h : pullUp st done x rest ns = .ok (st', items')) (hs : st.Single)
    (hn : (levelLabels (done ++ x :: rest) ++ levelLabels ns).Nodup) :
    (levelLabels items').Perm (levelLabels (done ++ x :: rest) ++ levelLabels ns) ∧ st'.label = st.label ∧
      st'.Single := by
  induction ns generalizing st done x rest with
  | nil =>
    obtain ⟨rfl, rfl⟩ : _ ∧ _ := by simpa [pullUp] using h
    exact ⟨by simp [levelLabels], rfl, hs⟩
  | cons n ns ih =>
    obtain ⟨⟨done', x', rest'⟩, hseek, h⟩ := bind_eq_ok.mp h
    rw [← seek_items hseek] at hn ⊢
    -- The labels of `n` move in front of those of the links after `x'`.
    have hperm : (levelLabels (done' ++ { x' with link := x'.link.addPaths n.link.fastPaths } :: rest') ++
        levelLabels ns).Perm (levelLabels (done' ++ x' :: rest') ++ levelLabels (n :: ns)) := by
      simp only [levelLabels, List.flatMap_append, List.flatMap_cons, Link.labels_addPaths, List.append_assoc]
      refine List.Perm.append_left _ (List.Perm.append_left _ ?_)
      rw [← List.append_assoc, ← List.append_assoc]
      exact List.Perm.append_right _ List.perm_append_comm
    have hn' := hperm.nodup_iff.mpr hn
    have hlink : (x'.link.addPaths n.link.fastPaths).labels.Nodup := by
      refine hn'.sublist ?_
      simp only [levelLabels, List.flatMap_append, List.flatMap_cons, List.append_assoc]
      exact (List.sublist_append_left _ _).trans (List.sublist_append_right _ _)
    obtain ⟨hp, hl, hs'⟩ := ih h (hs.setLink hlink) hn'
    refine ⟨hp.trans hperm, hl.trans ?_, hs'⟩
    cases x'.link <;> rfl

theorem shortestRecursive_labels {o : Order} {depth : Nat} {st st' : FpState} {items items' : List CheckItem}
    (h : shortestRecursive o depth st items = .ok (st', items')) (hs : st.Single)
    (hi : ∀ x ∈ items, x.link.labels = []) :
    ∃ n, (levelLabels items').Perm (List.range' st.label n) ∧ st'.label = st.label + n ∧ st'.Single := by
  induction depth generalizing st st' items items' with
  | zero => cases h
  | succ depth ih =>
    rw [shortestRecursive_succ] at h
    obtain ⟨⟨st₁, checked, next⟩, hall, h⟩ := bind_eq_ok.mp h
    obtain ⟨⟨st₂, next'⟩, hlow, h⟩ := bind_eq_ok.mp h
    obtain ⟨n, hl, hn, hs₁, hnext⟩ := visitAll_labels hall hs hi
    have hlower : ∃ m, (levelLabels next').Perm (List.range' st₁.label m) ∧ st₂.label = st₁.label + m ∧
      st₂.Single := by
      split at hlow
      · obtain ⟨rfl, rfl⟩ : _ ∧ _ := by simpa using hlow
        exact ⟨0, by simp [levelLabels], rfl, hs₁⟩
      · exact ih hlow hs₁ hnext
    obtain ⟨m, hm, hm', hs₂⟩ := hlower
    have hboth : (levelLabels checked ++ levelLabels next').Perm (List.range' st.label (n + m)) := by
      rw [← List.range'_append_1, ← hn, hl]
      exact List.Perm.append_left _ hm
    cases checked with
    | nil => cases h
    | cons x rest =>
      obtain ⟨⟨st₃, checked'⟩, hpull, h⟩ := bind_eq_ok.mp h
      obtain ⟨-, -, h⟩ := bind_eq_ok.mp h
      obtain ⟨rfl, rfl⟩ : _ ∧ _ := by simpa using h
      obtain ⟨hp, hl₃, hs₃⟩ := pullUp_labels hpull hs₂ (hboth.nodup_iff.mpr List.nodup_range')
      exact ⟨n + m, hp.trans hboth, by rw [hl₃, hm', hn, Nat.add_assoc], hs₃⟩

theorem fpAllocateLabels_single {o : Order} {st st' : FpState} (h : fpAllocateLabels o st = .ok st')
    (hs : st.Single) (hfp : ∀ r ∈ st.fpconf.rows, (Link.fp r).labels = []) : st'.Single := by
  unfold fpAllocateLabels at h
  split at h
  · obtain rfl : st = st' := by simpa using h
    exact hs
  · obtain ⟨⟨st₁, items⟩, hrun, h⟩ := bind_eq_ok.mp h
    obtain rfl : st₁ = st' := by simpa [pure, Except.pure] using h
    obtain ⟨-, -, -, hs₁⟩ := shortestRecursive_labels hrun hs fun x hx => by
      obtain ⟨r, hr, rfl⟩ := List.mem_map.mp hx
      exact hfp r ((Table.mem_find ..).mp hr).1
    exact hs₁

/-! ## One controller -/

/-- The label of a port in the tables as they are now. -/
def FpState.labelOf (st : FpState) (p : Row RFConfigEntry) : Option Nat :=
  (st.conf.rows.find? fun r => r.id == p.id).bind fun r => r.val.fpLabel

/-- The labels in `fast_paths` of a link in the tables as they are now. -/
def FpState.labelsOn (st : FpState) : Link → List Nat
  | .fp r => ((st.fpconf.rows.find? fun q => q.id == r.id).map fun q => (Link.fp q).labels).getD []
  | .isl r => ((st.islconf.rows.find? fun q => q.id == r.id).map fun q => (Link.isl q).labels).getD []

section Tables

variable {T : Wiring} {pl : Plan}

theorem find_overlay_id {ρ : Type} {t : Table ρ} {r : Row ρ} (hr : r ∈ t.rows) (f : Row ρ → ρ) :
    ((t.overlay f).rows.find? fun q => q.id == r.id) = some ⟨r.id, f r⟩ := by
  have hmem : (⟨r.id, f r⟩ : Row ρ) ∈ (t.overlay f).rows := (Table.mem_overlay ..).mpr ⟨r, hr, rfl⟩
  have hsome : ((t.overlay f).rows.find? fun q => q.id == r.id).isSome :=
    List.find?_isSome.mpr ⟨_, hmem, beq_self_eq_true r.id⟩
  obtain ⟨q, hq⟩ := Option.isSome_iff_exists.mp hsome
  have hid : q.id = r.id := by simpa using List.find?_some hq
  rw [hq, Table.eq_of_id (List.mem_of_find?_eq_some hq) hmem hid]

theorem labelOf_state {p : Row RFConfigEntry} (hp : p ∈ T.conf.rows) : (T.state pl).labelOf p = pl.lab p := by
  rw [FpState.labelOf, show (T.state pl).conf = T.conf.overlay pl.portVal from rfl, find_overlay_id hp]
  rfl

theorem labelsOn_state {k : Link} (hk : T.Has k) : (T.state pl).labelsOn k = (pl.carried k).map Prod.fst := by
  cases k with
  | fp r =>
    rw [FpState.labelsOn, show (T.state pl).fpconf = T.fpconf.overlay pl.fpVal from rfl, find_overlay_id hk]
    rfl
  | isl r =>
    rw [FpState.labelsOn, show (T.state pl).islconf = T.islconf.overlay pl.islVal from rfl,
      find_overlay_id hk]
    rfl

theorem carried_nodup (h : (T.state pl).Single) {k : Link} (hk : T.Has k) :
    ((pl.carried k).map Prod.fst).Nodup := by
  cases k with
  | fp r => exact h.fp ⟨r.id, pl.fpVal r⟩ ((Table.mem_overlay ..).mpr ⟨r, hk, rfl⟩)
  | isl r => exact h.isl ⟨r.id, pl.islVal r⟩ ((Table.mem_overlay ..).mpr ⟨r, hk, rfl⟩)

theorem Wiring.read_single (T : Wiring) : T.read.Single where
  fp r hr := by simp [Link.labels, Link.fastPaths, (T.fpconf_read r hr).2.1]
  isl r hr := by simp [Link.labels, Link.fastPaths, (T.islconf_read r hr).2.2.1]

theorem mem_carried_iff (h : Allocated T pl) {p : Row RFConfigEntry} {l : Nat}
    (hl : pl.lab p = some l) {k : Link} (hk : T.Has k) :
    l ∈ (pl.carried k).map Prod.fst ↔ Beneath T pl.par pl.up k p := by
  have hpar : ∀ q, Beneath T pl.par pl.up k q → (pl.par k).isSome := by
    intro q hb
    obtain ⟨m, hm, -⟩ := hb.up
    rw [hm]
    rfl
  constructor
  · intro hm
    obtain ⟨⟨l', vm⟩, hmem, rfl⟩ := List.mem_map.mp hm
    have hsome : (pl.par k).isSome := by
      rw [← h.growing.paths_iff]
      by_contra hno
      rw [Option.not_isSome_iff_eq_none] at hno
      simp [Plan.carried, hno] at hmem
    obtain ⟨q, hb, hq, -⟩ := (h.complete k hsome hk l' vm).mp hmem
    rwa [h.growing.lab_inj p q l' hl hq]
  · intro hb
    exact List.mem_map.mpr ⟨(l, p.val.vmPort), (h.complete k (hpar p hb) hk l _).mpr ⟨p, hb, hl, rfl⟩, rfl⟩

end Tables

theorem fpAllocateLabels_nil {T : Wiring} (o : Order) (hfp : T.fpconf.rows = []) :
    fpAllocateLabels o T.read = .ok T.read := by
  have hnil : RFFPConf.getEntriesAll o T.read.fpconf = [] := by
    refine List.eq_nil_iff_forall_not_mem.mpr fun r hr => ?_
    have := ((Table.mem_find ..).mp hr).1
    rw [show T.read.fpconf = T.fpconf from rfl, hfp] at this
    exact List.not_mem_nil this
  simp only [fpAllocateLabels, hnil]

theorem Wiring.Reachable.fpconf_ne {T : Wiring} {d : Nat} (h : T.Reachable d) : T.fpconf.rows ≠ [] := by
  induction h with
  | fp hr => exact List.ne_nil_of_mem hr
  | rem _ _ ih => exact ih
  | near _ _ ih => exact ih

/-- A port has a label if its switch can be reached, no two ports share one, and each label is once on every
link of one shortest path and nowhere else. -/
theorem labels_placed (T : Topology) (o : Order) : ∃ st, fpAllocateLabels o T.read = .ok st ∧
    (∀ p ∈ T.conf.rows, ((st.labelOf p).isSome ↔ T.Reachable p.val.dpId)) ∧
    (∀ p ∈ T.conf.rows, ∀ q ∈ T.conf.rows, ∀ l, st.labelOf p = some l →
      st.labelOf q = some l → p = q) ∧
    ∀ p ∈ T.conf.rows, ∀ l, st.labelOf p = some l →
      ∃ ks, T.Path p.val.dpId ks ∧ (∀ ks', T.Path p.val.dpId ks' → ks.length ≤ ks'.length) ∧
        ∀ k, T.Has k → (k ∈ ks → (st.labelsOn k).count l = 1) ∧ (k ∉ ks → l ∉ st.labelsOn k) := by
  by_cases hfp : T.fpconf.rows = []
  · have hnone : ∀ p ∈ T.conf.rows, T.read.labelOf p = none := fun p hp => by
      rw [← T.state_init, labelOf_state hp]
      rfl
    refine ⟨T.read, fpAllocateLabels_nil o hfp, fun p hp => ?_, fun p hp q _ l hl => ?_, fun p hp l hl => ?_⟩
    · rw [hnone p hp]
      exact ⟨fun hs => absurd hs (by simp), fun hr => absurd hfp hr.fpconf_ne⟩
    · rw [hnone p hp] at hl
      cases hl
    · rw [hnone p hp] at hl
      cases hl
  rcases fpAllocateLabels_ordered o hfp with ⟨-, hports⟩ | ⟨pl, hrun, h, num, n, hs, -⟩
  · have := T.ports_le
    omega
  have hsingle := fpAllocateLabels_single hrun T.read_single fun r hr => by
    simp [Link.labels, Link.fastPaths, (T.fpconf_read r hr).2.1]
  have hreach : ∀ p ∈ T.conf.rows, ((pl.lab p).isSome ↔ T.Reachable p.val.dpId) := fun p hp =>
    (h.growing.lab_iff p hp).trans (reached_iff h)
  refine ⟨T.state pl, hrun, fun p hp => ?_, fun p hp q hq l hl hl' => ?_, fun p hp l hl => ?_⟩
  · rw [labelOf_state hp]
    exact hreach p hp
  · rw [labelOf_state hp] at hl
    rw [labelOf_state hq] at hl'
    exact h.growing.lab_inj p q l hl hl'
  · rw [labelOf_state hp] at hl
    obtain ⟨ks, hpath, hlen, hmem⟩ := tree_path h hs ((hreach p hp).mp (by rw [hl]; rfl))
    refine ⟨ks, hpath, fun ks' hpath' => ?_, fun k hk => ?_⟩
    · rw [hlen]
      exact lvl_lt_path h hs hpath'
    · rw [labelsOn_state hk]
      have hiff : l ∈ (pl.carried k).map Prod.fst ↔ k ∈ ks := by
        rw [mem_carried_iff h hl hk, beneath_iff h hp, hmem]
      exact ⟨fun hks => List.count_eq_one_of_mem (carried_nodup hsingle hk) (hiff.mpr hks),
        fun hks hm => hks (hiff.mp hm)⟩

end RouteFlow
