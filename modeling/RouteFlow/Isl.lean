import RouteFlow.Association

/-!
# Inter-switch links

A link is two rows of RFISLTable, one from each end. Registrations and datapaths that go down come in
any order, and half a link may be left in either row.
-/

namespace RouteFlow

open Store Run

/-! ## What one line does -/

abbrev RFISLTable.shapes (t : RFISLTable) : Set RFISLShape := t.view RFISLShape.entry

theorem RFISLTable.exists_shape {t : RFISLTable} (hs : IslShaped t) {r : Row RFISLEntry} (hr : r ∈ t.rows) :
    ∃ sh ∈ t.shapes, r.val = sh.entry := by
  obtain ⟨sh, hsh⟩ := hs r hr
  exact ⟨sh, ⟨r, hr, hsh⟩, hsh⟩

/-- The end `a` registers, on a link to `b`. -/
inductive IslEffect (a b : IslEnd) (t : RFISLTable) : RFISLTable → Prop
  | alone {v} : (∀ sh ∈ t.shapes, sh.near ≠ some b) →
      IslEffect a b t (t.add (RFISLShape.entry ⟨v, some a, none⟩))
  | pairNew {r v} : r ∈ t.rows → r.val = RFISLShape.entry ⟨v, some b, none⟩ →
      IslEffect a b t ((t.put r.id (RFISLShape.entry ⟨v, some b, some a⟩)).add
        (RFISLShape.entry ⟨v, some a, some b⟩))
  | pairOld {r v q} {sh : RFISLShape} : r ∈ t.rows → r.val = RFISLShape.entry ⟨v, some b, none⟩ →
      q ∈ (t.put r.id (RFISLShape.entry ⟨v, some b, some a⟩)).rows → q.val = sh.entry → sh.far = some b →
      IslEffect a b t ((t.put r.id (RFISLShape.entry ⟨v, some b, some a⟩)).put q.id (sh.join a).entry)
  | keep {sh : RFISLShape} : sh ∈ t.shapes → sh.near = some b → sh.far ≠ none → IslEffect a b t t

/-- The end of a line at a port of datapath `d`, as `_register_islconf` sees it. -/
def thisEnd (c d p : Nat) (conf : RFISLConfEntry) : IslEnd := ⟨c, d, p, (Server.islEnds conf c d).ethAddr⟩

/-- The other end of the line. -/
def otherEnd (c d : Nat) (conf : RFISLConfEntry) : IslEnd :=
  let ends := Server.islEnds conf c d
  ⟨ends.remCt, ends.remId, ends.remPort, ends.remEthAddr⟩

theorem registerIslLine_effect (o : Order) (s : Server) (hs : IslShaped s.isltable) (c d p : Nat)
    (conf : RFISLConfEntry) :
    IslEffect (thisEnd c d p conf) (otherEnd c d conf) s.isltable
      (Server.registerIslLine o c d p s conf).isltable := by
  set b : IslEnd := otherEnd c d conf with hb
  unfold Server.registerIslLine
  dsimp only
  split
  · rename_i hnone
    have hno := (RFISLTable.getEntryByAddr_none (a := b)).mp hnone
    refine .alone ?_
    rintro sh ⟨r, hr, hsh⟩ hn
    exact hno r hr (by rw [hsh, RFISLShape.entry_near, hn])
  · rename_i r he
    obtain ⟨hr, hnear⟩ := RFISLTable.getEntryByAddr_some (a := b) he
    obtain ⟨⟨v, n, f⟩, hsh⟩ := hs r hr
    rw [hsh, RFISLShape.entry_near] at hnear
    simp only at hnear
    subst hnear
    split
    · rename_i hst
      obtain rfl : f = none := by
        rw [hsh, RFISLShape.entry_status] at hst
        cases f <;> simp_all [RFISLShape.status]
      have hjoin := RFISLShape.entry_associate ⟨v, some b, none⟩ (thisEnd c d p conf)
      rw [← hsh] at hjoin
      simp only [thisEnd] at hjoin
      rw [hjoin]
      split
      · exact .pairNew hr hsh
      · rename_i q hq
        obtain ⟨hqm, hfar⟩ := RFISLTable.getEntryByRemote_some (a := b) hq
        have hq' := hqm
        simp only [Server.setIsl_isltable, setEntry] at hqm hq' ⊢
        have hqs : ∃ sh : RFISLShape, q.val = sh.entry := by
          rcases (Table.mem_put hr _ _).mp hq' with rfl | ⟨hq', _⟩
          · exact ⟨_, rfl⟩
          · exact hs q hq'
        obtain ⟨sh, hqsh⟩ := hqs
        rw [hqsh, RFISLShape.entry_far] at hfar
        have hmirror := RFISLShape.entry_associate sh (thisEnd c d p conf)
        simp only [thisEnd] at hmirror
        rw [hqsh, hmirror]
        exact .pairOld hr hsh hqm hqsh hfar
    · rename_i hst
      refine .keep ⟨r, hr, hsh⟩ rfl fun hf => hst ?_
      rw [hsh, RFISLShape.entry_status]
      simp_all [RFISLShape.status]

section Line

variable {a b : IslEnd} {t t' : RFISLTable}

theorem IslEffect.shaped (h : IslEffect a b t t') (hs : IslShaped t) : IslShaped t' := by
  have put : ∀ {t : RFISLTable} {q : Row RFISLEntry} (sh : RFISLShape), IslShaped t → q ∈ t.rows →
      IslShaped (t.put q.id sh.entry) := by
    intro t q sh hs hq r hr
    rcases (Table.mem_put hq _ r).mp hr with rfl | ⟨hr, _⟩
    · exact ⟨sh, rfl⟩
    · exact hs r hr
  have add : ∀ {t : RFISLTable} (sh : RFISLShape), IslShaped t → IslShaped (t.add sh.entry) := by
    intro t sh hs r hr
    rcases (Table.mem_add t _ r).mp hr with hr | rfl
    · exact hs r hr
    · exact ⟨sh, rfl⟩
  cases h with
  | alone _ => exact add _ hs
  | pairNew hr _ => exact add _ (put _ hs hr)
  | pairOld hr _ hq _ _ => exact put _ (put _ hs hr) hq
  | keep _ _ _ => exact hs

/-- Nothing of the row is lost. -/
def RFISLShape.Extends (sh sh' : RFISLShape) : Prop :=
  (∀ x, sh.near = some x → sh'.near = some x) ∧ ∀ x, sh.far = some x → sh'.far = some x

theorem RFISLShape.Extends.refl (sh : RFISLShape) : sh.Extends sh := ⟨fun _ h => h, fun _ h => h⟩

theorem RFISLShape.extends_join (sh : RFISLShape) (a : IslEnd) : sh.Extends (sh.join a) := by
  obtain ⟨v, _ | x, _ | y⟩ := sh <;> simp [RFISLShape.Extends, RFISLShape.join]

theorem RFISLShape.Extends.trans {x y z : RFISLShape} (h : x.Extends y) (h' : y.Extends z) : x.Extends z :=
  ⟨fun _ hn => h'.1 _ (h.1 _ hn), fun _ hf => h'.2 _ (h.2 _ hf)⟩

theorem IslEffect.extends (h : IslEffect a b t t') {sh : RFISLShape} (hsh : sh ∈ t.shapes) :
    ∃ sh' ∈ t'.shapes, sh.Extends sh' := by
  have inj := RFISLShape.entry_injective
  cases h with
  | alone _ => exact ⟨sh, (Table.mem_view_add inj).mpr (Or.inr hsh), .refl sh⟩
  | @pairNew r v hr hrv =>
    rcases Table.mem_view_put (y := ⟨v, some b, some a⟩) inj hr hrv hsh with rfl | hsh
    · refine ⟨⟨v, some b, some a⟩, (Table.mem_view_add inj).mpr (Or.inr (Table.mem_view_put_self hr _)), ?_⟩
      simp [RFISLShape.Extends]
    · exact ⟨sh, (Table.mem_view_add inj).mpr (Or.inr hsh), .refl sh⟩
  | @pairOld r v q shq hr hrv hq hqv hfar =>
    have first : ∃ sh' ∈ RFISLTable.shapes (t.put r.id (RFISLShape.entry ⟨v, some b, some a⟩)),
      sh.Extends sh' := by
      rcases Table.mem_view_put (y := ⟨v, some b, some a⟩) inj hr hrv hsh with rfl | hsh
      · exact ⟨⟨v, some b, some a⟩, Table.mem_view_put_self hr _, by simp [RFISLShape.Extends]⟩
      · exact ⟨sh, hsh, .refl sh⟩
    obtain ⟨sh', hsh', hext⟩ := first
    rcases Table.mem_view_put (y := shq.join a) inj hq hqv hsh' with rfl | hsh'
    · exact ⟨_, Table.mem_view_put_self hq _, hext.trans (RFISLShape.extends_join _ a)⟩
    · exact ⟨sh', hsh', hext⟩
  | keep _ _ _ => exact ⟨sh, hsh, .refl sh⟩

theorem IslEffect.origin (h : IslEffect a b t t') {sh : RFISLShape} (hsh : sh ∈ t'.shapes) :
    sh ∈ t.shapes ∨ (sh.near = some a ∧ sh.far = none) ∨
      ((∃ v, (⟨v, some b, none⟩ : RFISLShape) ∈ t.shapes) ∧
        ((sh.near = some b ∧ sh.far = some a) ∨ (sh.near = some a ∧ sh.far = some b))) := by
  have inj := RFISLShape.entry_injective
  cases h with
  | alone _ =>
    rcases (Table.mem_view_add inj).mp hsh with rfl | hsh
    · exact Or.inr (Or.inl ⟨rfl, rfl⟩)
    · exact Or.inl hsh
  | @pairNew r v hr hrv =>
    have hidle : ∃ v, (⟨v, some b, none⟩ : RFISLShape) ∈ t.shapes := ⟨v, r, hr, hrv⟩
    rcases (Table.mem_view_add inj).mp hsh with rfl | hsh
    · exact Or.inr (Or.inr ⟨hidle, Or.inr ⟨rfl, rfl⟩⟩)
    · rcases Table.mem_view_of_put inj hr hsh with rfl | hsh
      · exact Or.inr (Or.inr ⟨hidle, Or.inl ⟨rfl, rfl⟩⟩)
      · exact Or.inl hsh
  | @pairOld r v q shq hr hrv hq hqv hfar =>
    have hidle : ∃ v, (⟨v, some b, none⟩ : RFISLShape) ∈ t.shapes := ⟨v, r, hr, hrv⟩
    have back : ∀ x : RFISLShape, x ∈
      RFISLTable.shapes (t.put r.id (RFISLShape.entry ⟨v, some b, some a⟩)) →
        x ∈ t.shapes ∨ (x.near = some b ∧ x.far = some a) := by
      intro x hx
      rcases Table.mem_view_of_put inj hr hx with rfl | hx
      · exact Or.inr ⟨rfl, rfl⟩
      · exact Or.inl hx
    rcases Table.mem_view_of_put inj hq hsh with rfl | hsh
    · -- The mirror gets its near end, unless it has one.
      cases hn : shq.near with
      | none =>
        refine Or.inr (Or.inr ⟨hidle, Or.inr ?_⟩)
        simp [RFISLShape.join, hn, hfar]
      | some x =>
        have hsame : shq.join a = shq := by simp [RFISLShape.join, hn, hfar]
        rw [hsame]
        rcases back shq ⟨q, hq, hqv⟩ with h | h
        · exact Or.inl h
        · exact Or.inr (Or.inr ⟨hidle, Or.inl h⟩)
    · rcases back sh hsh with h | h
      · exact Or.inl h
      · exact Or.inr (Or.inr ⟨hidle, Or.inl h⟩)
  | keep _ _ _ => exact Or.inl hsh

theorem IslEffect.result (h : IslEffect a b t t') :
    ((∀ sh ∈ t.shapes, sh.near ≠ some b) ∧ ∃ sh ∈ t'.shapes, sh.near = some a) ∨
    ((∃ sh ∈ t'.shapes, sh.near = some b ∧ sh.far = some a) ∧
      ∃ sh ∈ t'.shapes, ∃ x, sh.near = some x ∧ sh.far = some b) ∨
    ∃ sh ∈ t.shapes, ∃ y, sh.near = some b ∧ sh.far = some y := by
  have inj := RFISLShape.entry_injective
  cases h with
  | alone hno => exact Or.inl ⟨hno, _, (Table.mem_view_add inj).mpr (Or.inl rfl), rfl⟩
  | @pairNew r v hr _ =>
    refine Or.inr (Or.inl ⟨⟨⟨v, some b, some a⟩, ?_, rfl, rfl⟩, _,
      (Table.mem_view_add inj).mpr (Or.inl rfl), a, rfl, rfl⟩)
    exact (Table.mem_view_add inj).mpr (Or.inr (Table.mem_view_put_self hr _))
  | @pairOld r v q sh hr hrv hq hqv hfar =>
    refine Or.inr (Or.inl ⟨?_, _, Table.mem_view_put_self hq _, ?_⟩)
    · have := Table.mem_view_put_self (f := RFISLShape.entry) hr ⟨v, some b, some a⟩
      rcases Table.mem_view_put (y := sh.join a) inj hq hqv this with rfl | this
      · exact ⟨_, Table.mem_view_put_self hq _, by simp [RFISLShape.join]⟩
      · exact ⟨_, this, rfl, rfl⟩
    · cases hn : sh.near with
      | none => exact ⟨a, by simp [RFISLShape.join, hn, hfar]⟩
      | some x => exact ⟨x, by simp [RFISLShape.join, hn, hfar]⟩
  | keep hsh hnear hfar =>
    obtain ⟨y, hy⟩ := Option.ne_none_iff_exists'.mp hfar
    exact Or.inr (Or.inr ⟨_, hsh, y, hnear, hy⟩)

end Line

/-! ## Configurations -/

namespace Config

variable (cfg : Config)

def islEndsAll : List IslEnd :=
  cfg.islconf.rows.map (fun c => c.val.near) ++ cfg.islconf.rows.map fun c => c.val.far

/-- `a` and `b` are the two ends of a line, in either order. -/
def Linked (a b : IslEnd) : Prop :=
  ∃ c ∈ cfg.islconf.rows, (c.val.near = a ∧ c.val.far = b) ∨ (c.val.near = b ∧ c.val.far = a)

/-- No two ends are the same, and no line leads back to its own datapath. -/
structure DistinctEnds : Prop where
  ends_nodup : cfg.islEndsAll.Nodup
  apart : ∀ c ∈ cfg.islconf.rows, ¬ (c.val.ctId = c.val.remCt ∧ c.val.dpId = c.val.remId)

/-- No port has two uses, and there are no fast paths. -/
structure PlainIsls : Prop extends DistinctEnds cfg where
  not_vm : ∀ a ∈ cfg.islEndsAll, ∀ c ∈ cfg.config.rows, c.val.dp ≠ a.port
  not_rfvs : ∀ a ∈ cfg.islEndsAll, isRfvs a.dpId = false
  fp_disabled : cfg.fpEnabled = false

/-- The configuration gives the addresses of its links. -/
def LinkMacs : Prop := ∀ r ∈ cfg.islconf.rows, IsMac r.val.ethAddr ∧ IsMac r.val.remEthAddr

variable {cfg} {a b x : IslEnd}

theorem Linked.symm (h : cfg.Linked a b) : cfg.Linked b a := by
  obtain ⟨c, hc, h⟩ := h
  exact ⟨c, hc, h.symm⟩

theorem Linked.mem (h : cfg.Linked a b) : a ∈ cfg.islEndsAll := by
  obtain ⟨c, hc, ⟨rfl, -⟩ | ⟨-, rfl⟩⟩ := h
  · exact List.mem_append_left _ (List.mem_map_of_mem hc)
  · exact List.mem_append_right _ (List.mem_map_of_mem hc)

theorem Linked.ne (hc : cfg.DistinctEnds) (h : cfg.Linked a b) : ¬ (a.ctId = b.ctId ∧ a.dpId = b.dpId) := by
  obtain ⟨c, hm, ⟨rfl, rfl⟩ | ⟨rfl, rfl⟩⟩ := h
  · exact hc.apart c hm
  · rintro ⟨h1, h2⟩
    exact hc.apart c hm ⟨h1.symm, h2.symm⟩

theorem Linked.unique (hc : cfg.DistinctEnds) (h : cfg.Linked a b) (h' : cfg.Linked a x) : b = x := by
  have hn := hc.ends_nodup
  rw [islEndsAll, List.nodup_append] at hn
  obtain ⟨hnear, hfar, hdisj⟩ := hn
  obtain ⟨c, hm, hcase⟩ := h
  obtain ⟨c', hm', hcase'⟩ := h'
  rcases hcase with ⟨rfl, rfl⟩ | ⟨rfl, rfl⟩ <;> rcases hcase' with ⟨h1, rfl⟩ | ⟨rfl, h1⟩
  · rw [List.inj_on_of_nodup_map hnear hm' hm h1]
  · exact absurd h1.symm (hdisj _ (List.mem_map_of_mem hm) _ (List.mem_map_of_mem hm'))
  · exact absurd h1 (hdisj _ (List.mem_map_of_mem hm') _ (List.mem_map_of_mem hm))
  · rw [List.inj_on_of_nodup_map hfar hm' hm h1]

end Config

/-! ## The invariant -/

/-- `up` are the ends whose port is there. They are exactly the ends that rows have, and two that
belong together share a row in each direction. -/
structure Linking (cfg : Config) (up : Set IslEnd) (t : RFISLTable) : Prop where
  shaped : IslShaped t
  linked : ∀ sh ∈ t.shapes, ∀ x y, sh.near = some x → sh.far = some y → cfg.Linked x y
  near_up : ∀ sh ∈ t.shapes, ∀ x, sh.near = some x → x ∈ up
  far_up : ∀ sh ∈ t.shapes, ∀ x, sh.far = some x → x ∈ up
  row : ∀ x ∈ up, ∃ sh ∈ t.shapes, sh.near = some x
  both : ∀ x ∈ up, ∀ y ∈ up, cfg.Linked x y → ∃ sh ∈ t.shapes, sh.near = some x ∧ sh.far = some y

section Step

variable {cfg : Config} {up : Set IslEnd} {a b : IslEnd} {t t' : RFISLTable}

theorem Linking.linked_line (hi : Linking cfg up t) (h : IslEffect a b t t') (hl : cfg.Linked a b) :
    ∀ sh ∈ t'.shapes, ∀ x y, sh.near = some x → sh.far = some y → cfg.Linked x y := by
  intro sh hsh x y hx hy
  rcases h.origin hsh with hsh | ⟨-, hf⟩ | ⟨-, ⟨hn, hf⟩ | ⟨hn, hf⟩⟩
  · exact hi.linked sh hsh x y hx hy
  · rw [hf] at hy; cases hy
  all_goals
    rw [hn, Option.some.injEq] at hx
    rw [hf, Option.some.injEq] at hy
    subst hx hy
  · exact hl.symm
  · exact hl

theorem Linking.near_up_line (hi : Linking cfg up t) (h : IslEffect a b t t') :
    ∀ sh ∈ t'.shapes, ∀ x, sh.near = some x → x ∈ insert a up := by
  intro sh hsh x hx
  rcases h.origin hsh with hsh | ⟨hn, -⟩ | ⟨⟨v, hidle⟩, ⟨hn, -⟩ | ⟨hn, -⟩⟩
  · exact Or.inr (hi.near_up sh hsh x hx)
  · rw [hn, Option.some.injEq] at hx
    exact Or.inl hx.symm
  · rw [hn, Option.some.injEq] at hx
    exact Or.inr (hi.near_up _ hidle x (by rw [← hx]))
  · rw [hn, Option.some.injEq] at hx
    exact Or.inl hx.symm

theorem Linking.far_up_line (hi : Linking cfg up t) (h : IslEffect a b t t') :
    ∀ sh ∈ t'.shapes, ∀ x, sh.far = some x → x ∈ insert a up := by
  intro sh hsh x hx
  rcases h.origin hsh with hsh | ⟨-, hf⟩ | ⟨⟨v, hidle⟩, ⟨-, hf⟩ | ⟨-, hf⟩⟩
  · exact Or.inr (hi.far_up sh hsh x hx)
  · rw [hf] at hx; cases hx
  · rw [hf, Option.some.injEq] at hx
    exact Or.inl hx.symm
  · rw [hf, Option.some.injEq] at hx
    exact Or.inr (hi.near_up _ hidle x (by rw [← hx]))

theorem Linking.row_line (hc : cfg.DistinctEnds) (hi : Linking cfg up t) (h : IslEffect a b t t')
    (hl : cfg.Linked a b) : ∀ x ∈ insert a up, ∃ sh ∈ t'.shapes, sh.near = some x := by
  have old : ∀ x ∈ up, ∃ sh ∈ t'.shapes, sh.near = some x := by
    intro x hx
    obtain ⟨sh, hsh, hn⟩ := hi.row x hx
    obtain ⟨sh', hsh', hext⟩ := h.extends hsh
    exact ⟨sh', hsh', hext.1 x hn⟩
  rintro x (rfl | hx)
  · rcases h.result with ⟨-, hrow⟩ | ⟨-, sh, hsh, z, hz, hf⟩ | ⟨sh, hsh, y, hn, hf⟩
    · exact hrow
    · have hzb := hi.linked_line h hl sh hsh z b hz hf
      obtain rfl := hl.symm.unique hc hzb.symm
      exact ⟨sh, hsh, hz⟩
    · have hby := hi.linked sh hsh b y hn hf
      obtain rfl := hl.symm.unique hc hby
      exact old _ (hi.far_up sh hsh _ hf)
  · exact old x hx

theorem Linking.both_line (hc : cfg.DistinctEnds) (hi : Linking cfg up t) (h : IslEffect a b t t')
    (hl : cfg.Linked a b) : ∀ x ∈ insert a up, ∀ y ∈ insert a up, cfg.Linked x y →
      ∃ sh ∈ t'.shapes, sh.near = some x ∧ sh.far = some y := by
  have old : ∀ x ∈ up, ∀ y ∈ up, cfg.Linked x y → ∃ sh ∈ t'.shapes, sh.near = some x ∧
    sh.far = some y := by
    intro x hx y hy hxy
    obtain ⟨sh, hsh, hn, hf⟩ := hi.both x hx y hy hxy
    obtain ⟨sh', hsh', hext⟩ := h.extends hsh
    exact ⟨sh', hsh', hext.1 x hn, hext.2 y hf⟩
  -- With `b` there, the registration of `a` finds a row of `b` and completes both.
  have new : b ∈ up → (∃ sh ∈ t'.shapes, sh.near = some a ∧ sh.far = some b) ∧
      ∃ sh ∈ t'.shapes, sh.near = some b ∧ sh.far = some a := by
    intro hb
    rcases h.result with ⟨hno, -⟩ | ⟨hba, sh, hsh, z, hz, hf⟩ | ⟨sh, hsh, y, hn, hf⟩
    · obtain ⟨sh, hsh, hn⟩ := hi.row b hb
      exact absurd hn (hno sh hsh)
    · have hzb := hi.linked_line h hl sh hsh z b hz hf
      obtain rfl := hl.symm.unique hc hzb.symm
      exact ⟨⟨sh, hsh, hz, hf⟩, hba⟩
    · have hby := hi.linked sh hsh b y hn hf
      obtain rfl := hl.symm.unique hc hby
      have ha := hi.far_up sh hsh _ hf
      exact ⟨old _ ha b hb hl, old b hb _ ha hl.symm⟩
  have differ : ¬ cfg.Linked a a := fun haa => haa.ne hc ⟨rfl, rfl⟩
  rintro x (rfl | hx) y (rfl | hy) hxy
  · exact absurd hxy differ
  · obtain rfl := hl.unique hc hxy
    exact (new hy).1
  · obtain rfl := hl.unique hc hxy.symm
    exact (new hx).2
  · exact old x hx y hy hxy

theorem Linking.line (hc : cfg.DistinctEnds) (hi : Linking cfg up t) (h : IslEffect a b t t')
    (hl : cfg.Linked a b) : Linking cfg (insert a up) t' where
  shaped := h.shaped hi.shaped
  linked := hi.linked_line h hl
  near_up := hi.near_up_line h
  far_up := hi.far_up_line h
  row := hi.row_line hc h hl
  both := hi.both_line hc h hl

end Step

/-! ## A port with several lines -/

section Port

variable {c d p : Nat} {conf : RFISLConfEntry}


theorem ends_of_near (h : conf.near.port = ⟨c, d, p⟩)
    (hne : ¬ (conf.ctId = conf.remCt ∧ conf.dpId = conf.remId)) :
    thisEnd c d p conf = conf.near ∧ otherEnd c d conf = conf.far := by
  simp only [IslEnd.port, RFISLConfEntry.near, DpPort.mk.injEq] at h
  obtain ⟨rfl, rfl, rfl⟩ := h
  have : conf.remId ≠ conf.dpId ∨ conf.remCt ≠ conf.ctId := by
    by_cases h1 : conf.remId = conf.dpId
    · exact Or.inr fun h2 => hne ⟨h2.symm, h1.symm⟩
    · exact Or.inl h1
  simp [thisEnd, otherEnd, Server.islEnds, this, RFISLConfEntry.near, RFISLConfEntry.far]

theorem ends_of_far (h : conf.far.port = ⟨c, d, p⟩) :
    thisEnd c d p conf = conf.far ∧ otherEnd c d conf = conf.near := by
  simp only [IslEnd.port, RFISLConfEntry.far, DpPort.mk.injEq] at h
  obtain ⟨rfl, rfl, rfl⟩ := h
  simp [thisEnd, otherEnd, Server.islEnds, RFISLConfEntry.near, RFISLConfEntry.far]

theorem mem_getEntriesByPort {o : Order} {t : RFISLConf} {r : Row RFISLConfEntry} :
    r ∈ RFISLConf.getEntriesByPort o t c d p ↔
      r ∈ t.rows ∧ (r.val.near.port = ⟨c, d, p⟩ ∨ r.val.far.port = ⟨c, d, p⟩) := by
  simp [RFISLConf.getEntriesByPort, IslEnd.port, RFISLConfEntry.near, RFISLConfEntry.far,
    and_assoc, and_or_left]

variable {cfg : Config} (hc : cfg.DistinctEnds) {o : Order}
include hc

theorem thisEnd_linked {r : Row RFISLConfEntry} (hr : r ∈ RFISLConf.getEntriesByPort o cfg.islconf c d p) :
    cfg.Linked (thisEnd c d p r.val) (otherEnd c d r.val) := by
  obtain ⟨hm, h | h⟩ := mem_getEntriesByPort.mp hr
  · obtain ⟨h1, h2⟩ := ends_of_near h (hc.apart r hm)
    rw [h1, h2]
    exact ⟨r, hm, Or.inl ⟨rfl, rfl⟩⟩
  · obtain ⟨h1, h2⟩ := ends_of_far h
    rw [h1, h2]
    exact ⟨r, hm, Or.inr ⟨rfl, rfl⟩⟩

theorem mem_thisEnds {x : IslEnd} :
    (∃ r ∈ RFISLConf.getEntriesByPort o cfg.islconf c d p, thisEnd c d p r.val = x) ↔
      x ∈ cfg.islEndsAll ∧ x.port = ⟨c, d, p⟩ := by
  constructor
  · rintro ⟨r, hr, rfl⟩
    exact ⟨(thisEnd_linked hc hr).mem, rfl⟩
  · rintro ⟨hx, hp⟩
    rcases List.mem_append.mp hx with hx | hx
    · obtain ⟨r, hr, rfl⟩ := List.mem_map.mp hx
      exact ⟨r, mem_getEntriesByPort.mpr ⟨hr, Or.inl hp⟩, (ends_of_near hp (hc.apart r hr)).1⟩
    · obtain ⟨r, hr, rfl⟩ := List.mem_map.mp hx
      exact ⟨r, mem_getEntriesByPort.mpr ⟨hr, Or.inr hp⟩, (ends_of_far hp).1⟩

theorem Linking.lines (confs : List RFISLConfEntry) (s : Server) (up : Set IslEnd)
    (hl : ∀ conf ∈ confs, cfg.Linked (thisEnd c d p conf) (otherEnd c d conf))
    (hi : Linking cfg up s.isltable) :
    Linking cfg (up ∪ {x | ∃ conf ∈ confs, thisEnd c d p conf = x})
      (Server.registerIslconf o s confs c d p).isltable := by
  induction confs generalizing s up with
  | nil => simpa [Server.registerIslconf] using hi
  | cons conf rest ih =>
    have hline := hi.line hc (registerIslLine_effect o s hi.shaped c d p conf) (hl conf List.mem_cons_self)
    have hrest := ih (Server.registerIslLine o c d p s conf)
      _ (fun x hx => hl x (List.mem_cons_of_mem _ hx)) hline
    have hset : insert (thisEnd c d p conf) up ∪ {x | ∃ conf ∈ rest, thisEnd c d p conf = x} =
        up ∪ {x | ∃ conf' ∈ conf :: rest, thisEnd c d p conf' = x} := by
      ext x
      simp only [Set.mem_union, Set.mem_insert_iff, Set.mem_ofPred_eq, List.mem_cons, exists_eq_or_imp]
      rw [eq_comm (a := x)]
      tauto
    rw [hset] at hrest
    exact hrest

theorem Linking.register {s : Server} {up : Set IslEnd} (hi : Linking cfg up s.isltable) :
    Linking cfg (up ∪ {x | x ∈ cfg.islEndsAll ∧ x.port = ⟨c, d, p⟩})
      (Server.registerIslconf o s ((RFISLConf.getEntriesByPort o cfg.islconf c d p).map fun r => r.val)
        c d p).isltable := by
  have hlines := hi.lines hc (o := o) (c := c) (d := d) (p := p)
    ((RFISLConf.getEntriesByPort o cfg.islconf c d p).map fun r => r.val) s up
  have hset : {x | ∃ conf ∈ (RFISLConf.getEntriesByPort o cfg.islconf c d p).map fun r => r.val,
      thisEnd c d p conf = x} = {x | x ∈ cfg.islEndsAll ∧ x.port = ⟨c, d, p⟩} := by
    ext x
    simp only [Set.mem_ofPred_eq, ← mem_thisEnds hc (o := o), List.mem_map, exists_exists_and_eq_and]
  rw [hset] at hlines
  apply hlines
  intro conf hconf
  obtain ⟨r, hr, rfl⟩ := List.mem_map.mp hconf
  exact thisEnd_linked hc hr

end Port

/-! ## A datapath goes down -/

/-- Takes the ends on the datapath out of a row. -/
def RFISLShape.afterDown (c d : Nat) (sh : RFISLShape) : RFISLShape where
  vmId := sh.vmId
  near := sh.near.filter fun x => !(x.ctId == c && x.dpId == d)
  far := sh.far.filter fun x => !(x.ctId == c && x.dpId == d)

theorem RFISLShape.afterDown_near {c d : Nat} {sh : RFISLShape} {x : IslEnd} :
    (sh.afterDown c d).near = some x ↔ sh.near = some x ∧ ¬ (x.ctId = c ∧ x.dpId = d) := by
  simp [RFISLShape.afterDown, Option.filter_eq_some_iff, imp_iff_not_or]

theorem RFISLShape.afterDown_far {c d : Nat} {sh : RFISLShape} {x : IslEnd} :
    (sh.afterDown c d).far = some x ↔ sh.far = some x ∧ ¬ (x.ctId = c ∧ x.dpId = d) := by
  simp [RFISLShape.afterDown, Option.filter_eq_some_iff, imp_iff_not_or]

theorem setDpDown_isltable (o : Order) (s : Server) (c d : Nat) :
    (Server.setDpDown o s c d).isltable.rows = s.isltable.rows.map fun r =>
      Table.changeWhere (fun e => e.remCt == some c && e.remId == some d)
        (fun e => e.makeIdle .rfislIdleDpPort)
        (Table.changeWhere (fun e => e.ctId == some c && e.dpId == some d)
          (fun e => e.makeIdle .rfislIdleRemote) r) := by
  have h := (Server.setDpPortsDown_tables o s (RFTable.getDpEntries o s.rftable c d)).2
  simp only [Server.setDpDown]
  rw [RFISLTable.getRemoteEntries, Table.putAll_find, RFISLTable.getDpEntries, Table.putAll_find,
    h, List.map_map]
  rfl

theorem changeWhere_near (c d i : Nat) (sh : RFISLShape) :
    Table.changeWhere (fun e => e.ctId == some c && e.dpId == some d) (fun e => e.makeIdle .rfislIdleRemote)
      ⟨i, sh.entry⟩ = ⟨i, { sh with near := (sh.afterDown c d).near }.entry⟩ := by
  obtain ⟨v, _ | x, f⟩ := sh
  · rfl
  · by_cases h : x.ctId = c ∧ x.dpId = d
    · simp [Table.changeWhere, RFISLShape.entry, RFISLShape.afterDown, RFISLEntry.makeIdle, h]
    · have h' : ¬ x.ctId = c ∨ ¬ x.dpId = d := by tauto
      simp [Table.changeWhere, RFISLShape.entry, RFISLShape.afterDown, h, h']

theorem changeWhere_far (c d i : Nat) (sh : RFISLShape) :
    Table.changeWhere (fun e => e.remCt == some c && e.remId == some d) (fun e => e.makeIdle .rfislIdleDpPort)
      ⟨i, sh.entry⟩ = ⟨i, { sh with far := (sh.afterDown c d).far }.entry⟩ := by
  obtain ⟨v, n, _ | x⟩ := sh
  · rfl
  · by_cases h : x.ctId = c ∧ x.dpId = d
    · simp [Table.changeWhere, RFISLShape.entry, RFISLShape.afterDown, RFISLEntry.makeIdle, h]
    · have h' : ¬ x.ctId = c ∨ ¬ x.dpId = d := by tauto
      simp [Table.changeWhere, RFISLShape.entry, RFISLShape.afterDown, h, h']

theorem RFISLTable.shapes_down (o : Order) (s : Server) (hs : IslShaped s.isltable) (c d : Nat) :
    RFISLTable.shapes (Server.setDpDown o s c d).isltable =
      Set.image (RFISLShape.afterDown c d) (RFISLTable.shapes s.isltable) := by
  refine Table.view_map RFISLShape.entry_injective (setDpDown_isltable o s c d) hs fun i sh => ?_
  rw [changeWhere_near, changeWhere_far]
  rfl

theorem setDpDown_islShaped (o : Order) (s : Server) (hs : IslShaped s.isltable) (c d : Nat) :
    IslShaped (Server.setDpDown o s c d).isltable := by
  intro r hr
  rw [setDpDown_isltable] at hr
  obtain ⟨q, hq, rfl⟩ := List.mem_map.mp hr
  obtain ⟨sh, hsh⟩ := hs q hq
  rw [show q = ⟨q.id, sh.entry⟩ by rw [← hsh], changeWhere_near, changeWhere_far]
  exact ⟨_, rfl⟩

theorem Linking.down {cfg : Config} {up : Set IslEnd} (o : Order) (s : Server) (c d : Nat)
    (hi : Linking cfg up s.isltable) :
    Linking cfg (up \ {x | x.ctId = c ∧ x.dpId = d}) (Server.setDpDown o s c d).isltable := by
  have hsh := RFISLTable.shapes_down o s hi.shaped c d
  refine ⟨setDpDown_islShaped o s hi.shaped c d, ?_, ?_, ?_, ?_, ?_⟩
  all_goals rw [hsh]
  · rintro _ ⟨sh, hm, rfl⟩ x y hx hy
    exact hi.linked sh hm x y (RFISLShape.afterDown_near.mp hx).1 (RFISLShape.afterDown_far.mp hy).1
  · rintro _ ⟨sh, hm, rfl⟩ x hx
    obtain ⟨hx, hon⟩ := RFISLShape.afterDown_near.mp hx
    exact ⟨hi.near_up sh hm x hx, hon⟩
  · rintro _ ⟨sh, hm, rfl⟩ x hx
    obtain ⟨hx, hon⟩ := RFISLShape.afterDown_far.mp hx
    exact ⟨hi.far_up sh hm x hx, hon⟩
  · rintro x ⟨hx, hon⟩
    obtain ⟨sh, hm, hn⟩ := hi.row x hx
    exact ⟨_, ⟨sh, hm, rfl⟩, RFISLShape.afterDown_near.mpr ⟨hn, hon⟩⟩
  · rintro x ⟨hx, hxon⟩ y ⟨hy, hyon⟩ hxy
    obtain ⟨sh, hm, hn, hf⟩ := hi.both x hx y hy hxy
    exact ⟨_, ⟨sh, hm, rfl⟩, RFISLShape.afterDown_near.mpr ⟨hn, hxon⟩,
      RFISLShape.afterDown_far.mpr ⟨hf, hyon⟩⟩

/-! ## All messages -/

section Messages

variable (cfg : Config) (o : Order)

theorem enterDpPort_isl (s : Server) {c d p : Nat} (h : isIslPort cfg o c d p) :
    (Server.enterDpPort cfg o s c d p).1 = s.registerIslconf o
      ((RFISLConf.getEntriesByPort o cfg.islconf c d p).map fun r => r.val) c d p := by
  unfold Server.enterDpPort
  rw [h.1]
  simp only
  split
  · rename_i hnil
    exact absurd hnil h.2
  · rfl

theorem enterDpPort_not_isl (s : Server) {c d p : Nat} (h : ¬ isIslPort cfg o c d p) :
    (Server.enterDpPort cfg o s c d p).1.isltable = s.isltable := by
  unfold Server.enterDpPort
  split
  · rename_i hnone
    split
    · rfl
    · rename_i hsome
      exact absurd ⟨hnone, hsome⟩ h
  · split
    · rfl
    · split
      · split <;> rfl
      · rfl

/-- Only the registration of an ISL port and a datapath that goes down change RFISLTable. -/
inductive IslStep (s : Server) : Msg → RFISLTable → Prop
  | register {c d p s'} : s'.isltable = s.isltable → dpProceeds cfg o s c d → isIslPort cfg o c d p →
      IslStep s (.datapathPortRegister c d p) (Server.registerIslconf o s'
        ((RFISLConf.getEntriesByPort o cfg.islconf c d p).map fun r => r.val) c d p).isltable
  | other {c d p} : ¬ dpProceeds cfg o s c d ∨ ¬ isIslPort cfg o c d p →
      IslStep s (.datapathPortRegister c d p) s.isltable
  | down {c d} : IslStep s (.datapathDown c d) (Server.setDpDown o s c d).isltable
  | frame {msg} : (∀ c d p, msg ≠ .datapathPortRegister c d p) → (∀ c d, msg ≠ .datapathDown c d) →
      IslStep s msg s.isltable

theorem step_isl (s : Server) (msg : Msg) : IslStep cfg o s msg (s.step cfg (o, msg)).isltable := by
  cases msg with
  | portRegister v p m =>
    simp only [Server.step, Server.process, Server.registerVmPort_isltable]
    exact .frame (by simp) (by simp)
  | routeMod rm =>
    simp only [Server.step, Server.process, (Server.registerRouteMod_tables s cfg o rm).2]
    exact .frame (by simp) (by simp)
  | virtualPlaneMap v p vs vp =>
    simp only [Server.step, Server.process, Server.mapPort_isltable]
    exact .frame (by simp) (by simp)
  | routeModReply =>
    simp only [Server.step, Server.process, Server.sendRoutemodAcks_isltable]
    exact .frame (by simp) (by simp)
  | datapathDown c d => exact .down
  | datapathPortRegister c d p =>
    have ht := (Server.configDp_tables s cfg o c d).2
    simp only [Server.step, Server.process, Server.registerDpPort]
    split
    · rename_i s' e h
      simp only [h] at ht
      rw [ht]
      exact .other (Or.inl (by simp [dpProceeds, h]))
    · rename_i s' h
      simp only [h] at ht
      rw [ht]
      exact .other (Or.inl (by simp [dpProceeds, h]))
    · rename_i s' h
      simp only [h] at ht
      by_cases hisl : isIslPort cfg o c d p
      · rw [enterDpPort_isl cfg o s' hisl]
        exact .register ht (by simp [dpProceeds, h]) hisl
      · rw [enterDpPort_not_isl cfg o s' hisl, ht]
        exact .other (Or.inr hisl)

end Messages

theorem registerIslconf_shaped (o : Order) (confs : List RFISLConfEntry) (s : Server) (c d p : Nat)
    (hs : IslShaped s.isltable) : IslShaped (Server.registerIslconf o s confs c d p).isltable := by
  induction confs generalizing s with
  | nil => exact hs
  | cons conf rest ih =>
    rw [Server.registerIslconf, List.foldl_cons]
    exact ih _ ((registerIslLine_effect o s hs c d p conf).shaped hs)

theorem step_islShaped {cfg : Config} {s : Server} (hs : IslShaped s.isltable) (x : Order × Msg) :
    IslShaped (s.step cfg x).isltable := by
  obtain ⟨o, msg⟩ := x
  have he := step_isl cfg o s msg
  revert he
  generalize (s.step cfg (o, msg)).isltable = t
  intro he
  cases he with
  | register ht _ _ => exact registerIslconf_shaped o _ _ _ _ _ (by rw [ht]; exact hs)
  | down => exact setDpDown_islShaped o s hs _ _
  | other _ | frame _ _ => exact hs

theorem init_islShaped : IslShaped Server.init.isltable := by
  intro r hr
  simp [Server.init, memoryTable] at hr

/-! ## Runs -/

theorem run_shaped (cfg : Config) (h : History) :
    RFShaped (run (Server.step cfg) Server.init h).rftable ∧
      IslShaped (run (Server.step cfg) Server.init h).isltable :=
  invariant (I := fun s : Server => RFShaped s.rftable ∧ IslShaped s.isltable)
    (fun _ x _ hs => ⟨step_shaped hs.1 x, step_islShaped hs.2 x⟩)
      ⟨init_shaped, init_islShaped⟩ (along_true _ _ h)

/-- The ends whose port has registered since its datapath last went down. -/
def upEnds (cfg : Config) (h : History) : Set IslEnd := {x | x ∈ cfg.islEndsAll ∧ DpUp x.port h}

theorem upEnds_register (cfg : Config) (h : History) (o : Order) (c d p : Nat) :
    upEnds cfg (h ++ [(o, .datapathPortRegister c d p)]) =
      upEnds cfg h ∪ {x | x ∈ cfg.islEndsAll ∧ x.port = ⟨c, d, p⟩} := by
  ext x
  have : DpUp x.port (h ++ [(o, .datapathPortRegister c d p)]) ↔ DpUp x.port h ∨ x.port = ⟨c, d, p⟩ := by
    simp only [DpUp, since_snoc, Msg.datapathPortRegister.injEq, reduceCtorEq, not_false_eq_true, and_true]
    rw [or_comm, DpPort.ext_iff]
    simp only [eq_comm]
  simp only [upEnds, Set.mem_union, Set.mem_ofPred_eq, this, and_or_left]

theorem upEnds_down (cfg : Config) (h : History) (o : Order) (c d : Nat) :
    upEnds cfg (h ++ [(o, .datapathDown c d)]) = upEnds cfg h \ {x | x.ctId = c ∧ x.dpId = d} := by
  ext x
  have : DpUp x.port (h ++ [(o, .datapathDown c d)]) ↔ DpUp x.port h ∧ ¬ (x.ctId = c ∧ x.dpId = d) := by
    simp only [DpUp, since_snoc, Msg.datapathDown.injEq, reduceCtorEq, false_or, IslEnd.port]
    simp only [eq_comm]
  simp only [upEnds, Set.mem_sdiff, Set.mem_ofPred_eq, this, and_assoc]

theorem upEnds_frame (cfg : Config) (h : History) (o : Order) {msg : Msg}
    (hr : ∀ c d p, msg ≠ .datapathPortRegister c d p) (hd : ∀ c d, msg ≠ .datapathDown c d) :
    upEnds cfg (h ++ [(o, msg)]) = upEnds cfg h := by
  ext x
  simp [upEnds, DpUp, since_snoc, hr, hd]

theorem no_end_of_other {cfg : Config} (hc : cfg.PlainIsls) {o : Order} {s : Server} {c d p : Nat}
    (h : ¬ dpProceeds cfg o s c d ∨ ¬ isIslPort cfg o c d p) {x : IslEnd} (hx : x ∈ cfg.islEndsAll) :
    x.port ≠ ⟨c, d, p⟩ := by
  intro hp
  simp only [IslEnd.port, DpPort.mk.injEq] at hp
  obtain ⟨rfl, rfl, rfl⟩ := hp
  rcases h with h | h
  · rw [dpProceeds_iff, not_not] at h
    rcases h with h | ⟨-, -, e, he⟩
    · rw [hc.not_rfvs x hx] at h
      cases h
    · obtain ⟨rms, hok⟩ := configureDatapath_ok hc.fp_disabled o (Server.newTranslator cfg x.ctId x.dpId)
      rw [hok] at he
      cases he
  · refine h ⟨RFConfig.getConfigForDpPort_none.mpr (hc.not_vm x hx), fun hnil => ?_⟩
    obtain ⟨r, hr, -⟩ := (mem_thisEnds hc.toDistinctEnds (o := o)).mpr ⟨hx, rfl⟩
    rw [hnil] at hr
    cases hr

theorem Linking.step {cfg : Config} (hc : cfg.PlainIsls) {h : History} {s : Server} (x : Order × Msg)
    (hi : Linking cfg (upEnds cfg h) s.isltable) :
    Linking cfg (upEnds cfg (h ++ [x])) (s.step cfg x).isltable := by
  obtain ⟨o, msg⟩ := x
  have he := step_isl cfg o s msg
  revert he
  generalize (s.step cfg (o, msg)).isltable = t
  intro he
  cases he with
  | @register c d p s' ht _ _ =>
    rw [← ht] at hi
    rw [upEnds_register]
    exact hi.register hc.toDistinctEnds
  | @other c d p hno =>
    rw [upEnds_register]
    have : {x | x ∈ cfg.islEndsAll ∧ x.port = ⟨c, d, p⟩} = ∅ := by
      ext x
      simp only [Set.mem_ofPred_eq, Set.mem_empty_iff_false, iff_false, not_and]
      exact fun hx => no_end_of_other hc hno hx
    rw [this, Set.union_empty]
    exact hi
  | down =>
    rw [upEnds_down]
    exact hi.down o s _ _
  | frame hr hd =>
    rw [upEnds_frame cfg h o hr hd]
    exact hi

theorem Linking.init (cfg : Config) : Linking cfg (upEnds cfg []) Server.init.isltable where
  shaped := init_islShaped
  linked := by rintro sh ⟨r, hr, -⟩; simp [Server.init, memoryTable] at hr
  near_up := by rintro sh ⟨r, hr, -⟩; simp [Server.init, memoryTable] at hr
  far_up := by rintro sh ⟨r, hr, -⟩; simp [Server.init, memoryTable] at hr
  row := by rintro x ⟨-, hx⟩; simp [DpUp] at hx
  both := by rintro x ⟨-, hx⟩; simp [DpUp] at hx

theorem run_linking {cfg : Config} (hc : cfg.PlainIsls) (h : History) :
    Linking cfg (upEnds cfg h) (run (Server.step cfg) Server.init h).isltable :=
  history_invariant (I := fun h (s : Server) => Linking cfg (upEnds cfg h) s.isltable) (Linking.init cfg)
    (fun _ _ x _ hi => hi.step hc x) h (along_true _ _ h)

theorem run_linking_some {cfg : Config} (hc : cfg.DistinctEnds) (h : History) :
    ∃ up, Linking cfg up (run (Server.step cfg) Server.init h).isltable := by
  refine invariant (I := fun s : Server => ∃ up, Linking cfg up s.isltable)
    ?_ ⟨_, Linking.init cfg⟩ (along_true _ _ h)
  rintro s ⟨o, msg⟩ - ⟨up, hi⟩
  have he := step_isl cfg o s msg
  revert he
  generalize (s.step cfg (o, msg)).isltable = t
  intro he
  cases he with
  | register ht _ _ =>
    rw [← ht] at hi
    exact ⟨_, hi.register hc⟩
  | down => exact ⟨_, hi.down o s _ _⟩
  | other _ | frame _ _ => exact ⟨up, hi⟩

def RFISLEntry.Contains (e : RFISLEntry) (a : IslEnd) : Prop := e.near = some a ∨ e.far = some a

theorem Linking.contains_up {cfg : Config} {up : Set IslEnd} {t : RFISLTable} (hi : Linking cfg up t)
    {r : Row RFISLEntry} (hr : r ∈ t.rows) {a : IslEnd} (h : r.val.Contains a) : a ∈ up := by
  obtain ⟨sh, hsh, he⟩ := RFISLTable.exists_shape hi.shaped hr
  rw [RFISLEntry.Contains, he, RFISLShape.entry_near, RFISLShape.entry_far] at h
  rcases h with h | h
  · exact hi.near_up sh hsh a h
  · exact hi.far_up sh hsh a h

theorem Linking.row_of_both {cfg : Config} {up : Set IslEnd} {t : RFISLTable} (hi : Linking cfg up t)
    {a b : IslEnd} (ha : a ∈ up) (hb : b ∈ up) (hl : cfg.Linked a b) :
    ∃ r ∈ t.rows, r.val.near = some a ∧ r.val.far = some b ∧ r.val.getStatus = .rfislActive := by
  obtain ⟨sh, ⟨r, hr, he⟩, hn, hf⟩ := hi.both a ha b hb hl
  refine ⟨r, hr, ?_, ?_, ?_⟩
  · rw [he, RFISLShape.entry_near, hn]
  · rw [he, RFISLShape.entry_far, hf]
  · rw [he, RFISLShape.entry_status]
    simp [RFISLShape.status, hn, hf]

/-- With both ends there, the link has its two rows, and otherwise no row has both ends. -/
theorem isls_registered (cfg : Config) (hc : cfg.PlainIsls) (h : History) (conf : Row RFISLConfEntry)
    (hconf : conf ∈ cfg.islconf.rows) :
    let t := (run (Server.step cfg) Server.init h).isltable
    let a := conf.val.near
    let b := conf.val.far
    (DpUp a.port h → DpUp b.port h →
      (∃ r ∈ t.rows, r.val.near = some a ∧ r.val.far = some b ∧ r.val.getStatus = .rfislActive) ∧
      ∃ r ∈ t.rows, r.val.near = some b ∧ r.val.far = some a ∧ r.val.getStatus = .rfislActive) ∧
    (¬ DpUp a.port h ∨ ¬ DpUp b.port h → ∀ r ∈ t.rows, ¬ (r.val.Contains a ∧ r.val.Contains b)) := by
  intro t a b
  have hi : Linking cfg (upEnds cfg h) t := run_linking hc h
  have hl : cfg.Linked a b := ⟨conf, hconf, Or.inl ⟨rfl, rfl⟩⟩
  constructor
  · intro ha hb
    have hau : a ∈ upEnds cfg h := ⟨hl.mem, ha⟩
    have hbu : b ∈ upEnds cfg h := ⟨hl.symm.mem, hb⟩
    exact ⟨hi.row_of_both hau hbu hl, hi.row_of_both hbu hau hl.symm⟩
  · rintro hno r hr ⟨hca, hcb⟩
    have hau := (hi.contains_up hr hca).2
    have hbu := (hi.contains_up hr hcb).2
    exact hno.elim (fun h => h hau) fun h => h hbu

/-- Port 9 of datapath 5 leads to port 8 of datapath 6. -/
def oneIsl : Config where
  config := memoryTable RFConfigEntry
  islconf := (memoryTable RFISLConfEntry).add ⟨1, 0, 5, 9, Mac.text 0x21, 0, 6, 8, Mac.text 0x22, none, none⟩
  fpconf := memoryTable RFFPConfEntry
  multitabledps := []
  satellitedps := []

theorem oneIsl_plainIsls : oneIsl.PlainIsls where
  ends_nodup := by decide
  apart := by simp [oneIsl, memoryTable]
  not_vm := by simp [oneIsl, memoryTable]
  not_rfvs := by decide
  fp_disabled := rfl

/-- One end goes down and comes back. -/
theorem isls_registered_oneIsl :
    let o := Order.insertion
    let h : History := [(o, .datapathPortRegister 0 5 9), (o, .datapathPortRegister 0 6 8),
      (o, .datapathDown 0 5), (o, .datapathPortRegister 0 5 9)]
    ∃ r ∈ (run (Server.step oneIsl) Server.init h).isltable.rows,
      r.val.near = some ⟨0, 6, 8, Mac.text 0x22⟩ ∧ r.val.far = some ⟨0, 5, 9, Mac.text 0x21⟩ ∧
        r.val.getStatus = .rfislActive := by
  intro o h
  refine ((isls_registered oneIsl oneIsl_plainIsls h
    ⟨1001, ⟨1, 0, 5, 9, Mac.text 0x21, 0, 6, 8, Mac.text 0x22, none, none⟩⟩ ?_).1 ?_ ?_).2
  · simp [oneIsl, memoryTable, Table.empty]
  · exact ⟨h.take 3, (o, .datapathPortRegister 0 5 9), [], rfl, rfl, by simp⟩
  · exact ⟨h.take 1, (o, .datapathPortRegister 0 6 8), h.drop 2, rfl, rfl,
      by simp [h, RFISLConfEntry.far, IslEnd.port]⟩

end RouteFlow
