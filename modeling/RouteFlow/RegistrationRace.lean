import RouteFlow.Registration

/-!
# Registrations that race

Each handler looks the other port up and then writes its own. One that is done before the other looks
is found. Two that look first miss each other, and their rows stay idle.
-/

namespace RouteFlow

open Store Run Race

namespace Registering

/-- Some row joins the two ports. -/
def Paired (t : RFTable) (v : VmPort) (d : DpPort) : Prop :=
  ∃ r ∈ t.rows, r.val.vm = some v ∧ r.val.dp = some d

section Tables

variable (cfg : Config) (o : Order) (v : VmPort) (ethAddr : Mac) (d : DpPort)

/-- What `register_vm_port` finds in the table `t`. -/
inductive VmLook (t : RFTable) : RegisterAction → Prop
  | idle : (∀ c, RFConfig.getConfigForVmPort o cfg.config v.vmId v.vmPort = some c →
      ∀ r ∈ t.rows, r.val.dp ≠ some c.val.dp) → VmLook t .registerIdle
  | join {c r} : RFConfig.getConfigForVmPort o cfg.config v.vmId v.vmPort = some c → r ∈ t.rows →
      r.val = (RFShape.idleDp c.val.dp).entry → VmLook t (.registerAssociated r)
  | keep {c r} : RFConfig.getConfigForVmPort o cfg.config v.vmId v.vmPort = some c → r ∈ t.rows →
      r.val.dp = some c.val.dp → r.val.getStatus ≠ .rfentryIdleDpPort → VmLook t .nothing

/-- What `register_dp_port` finds for a port of a line. -/
inductive DpLook (s : Server) (t : RFTable) : RegisterAction → Prop
  | refused : dpRefused cfg o s d.ctId d.dpId → DpLook s t .nothing
  | idle {c} : ¬ dpRefused cfg o s d.ctId d.dpId →
      RFConfig.getConfigForDpPort o cfg.config d.ctId d.dpId d.dpPort = some c →
      (∀ r ∈ t.rows, r.val.vm ≠ some c.val.vm) → DpLook s t .registerIdle
  | join {c r m} : ¬ dpRefused cfg o s d.ctId d.dpId →
      RFConfig.getConfigForDpPort o cfg.config d.ctId d.dpId d.dpPort = some c → r ∈ t.rows →
      r.val = (RFShape.idleVm c.val.vm m).entry → DpLook s t (.registerAssociated r)
  | keep {c r} : RFConfig.getConfigForDpPort o cfg.config d.ctId d.dpId d.dpPort = some c → r ∈ t.rows →
      r.val.vm = some c.val.vm → r.val.getStatus ≠ .rfentryIdleVmPort → DpLook s t .nothing

variable {cfg o v ethAddr d} {s : Server} {t u : RFTable} {a : RegisterAction}

theorem vmThread_looks (ht : RFShaped t) : VmLook cfg o v t ((vmThread cfg o v ethAddr).look t) := by
  simp only [vmThread]
  split
  · rename_i hc
    exact .idle (by simp [hc])
  · rename_i c hc
    split
    · rename_i he
      refine .idle fun c' hc' => ?_
      rw [hc, Option.some.injEq] at hc'
      rw [← hc']
      exact RFTable.getEntryByDpPort_none.mp he
    · rename_i r he
      obtain ⟨hr, hdp⟩ := RFTable.getEntryByDpPort_some he
      split
      · rename_i hidle
        obtain ⟨sh, hsh⟩ := ht r hr
        rw [hsh, RFShape.entry_status] at hidle
        obtain ⟨x, rfl⟩ := RFShape.eq_idleDp_of_status hidle
        rw [hsh, RFShape.entry_dp, RFShape.dp, Option.some.injEq] at hdp
        exact .join hc hr (by rw [hsh, hdp]; rfl)
      · rename_i hidle
        exact .keep hc hr hdp hidle

theorem dpThread_looks (hc : cfg.Joins v d) (ht : RFShaped t) :
    DpLook cfg o d s t ((dpThread cfg o s d).look t) := by
  by_cases href : dpRefused cfg o s d.ctId d.dpId
  · rw [dpThread_look_refused href]
    exact .refused href
  · cases hl : RFConfig.getConfigForDpPort o cfg.config d.ctId d.dpId d.dpPort with
    | none =>
      obtain ⟨c, hm, -, hd⟩ := hc
      exact absurd hd (RFConfig.getConfigForDpPort_none.mp hl c hm)
    | some c =>
      rw [dpThread_look ((dpProceeds_iff cfg o s d.ctId d.dpId).mpr href) hl]
      split
      · rename_i he
        exact .idle href hl (RFTable.getEntryByVmPort_none.mp he)
      · rename_i r he
        obtain ⟨hr, hvm⟩ := RFTable.getEntryByVmPort_some he
        split
        · rename_i hidle
          obtain ⟨sh, hsh⟩ := ht r hr
          rw [hsh, RFShape.entry_status] at hidle
          obtain ⟨x, m, rfl⟩ := RFShape.eq_idleVm_of_status hidle
          rw [hsh, RFShape.entry_vm, RFShape.vm, Option.some.injEq] at hvm
          exact .join href hl hr (by rw [hsh, hvm]; rfl)
        · rename_i hidle
          exact .keep hl hr hvm hidle

theorem mem_of_put {i : Nat} {e : RFEntry} {r : Row RFEntry} (hr : r ∈ (t.put i e).rows) :
    r.val = e ∨ r ∈ t.rows := by
  obtain ⟨q, hq, rfl⟩ := List.mem_map.mp hr
  split
  · exact Or.inl rfl
  · exact Or.inr hq

theorem VmLook.mem_act (h : VmLook cfg o v t a) {r : Row RFEntry}
    (hr : r ∈ ((vmThread cfg o v ethAddr).act a u).rows) :
    r ∈ u.rows ∨ (a = .registerIdle ∧ r.val = (RFShape.idleVm v ethAddr).entry) ∨
      ∃ q ∈ t.rows, ∃ x, a = .registerAssociated q ∧ q.val = (RFShape.idleDp x).entry ∧
        r.val = (RFShape.associated v ethAddr x).entry := by
  cases h with
  | idle _ =>
    rcases (Table.mem_add u _ r).mp hr with hr | rfl
    · exact Or.inl hr
    · exact Or.inr (Or.inl ⟨rfl, rfl⟩)
  | @join c q _ hq hqv =>
    simp only [vmThread, hqv, RFShape.associate_vm] at hr
    rcases mem_of_put hr with hr | hr
    · exact Or.inr (Or.inr ⟨q, hq, _, rfl, hqv, hr⟩)
    · exact Or.inl hr
  | keep _ _ _ _ => exact Or.inl hr

theorem DpLook.mem_act (h : DpLook cfg o d s t a) {r : Row RFEntry}
    (hr : r ∈ ((dpThread cfg o s d).act a u).rows) :
    r ∈ u.rows ∨ (a = .registerIdle ∧ r.val = (RFShape.idleDp d).entry) ∨
      ∃ q ∈ t.rows, ∃ x m, a = .registerAssociated q ∧ q.val = (RFShape.idleVm x m).entry ∧
        r.val = (RFShape.associated x m d).entry := by
  cases h with
  | idle _ _ _ =>
    rcases (Table.mem_add u _ r).mp hr with hr | rfl
    · exact Or.inl hr
    · exact Or.inr (Or.inl ⟨rfl, rfl⟩)
  | @join c q m _ _ hq hqv =>
    simp only [dpThread, hqv, RFShape.associate_dp] at hr
    rcases mem_of_put hr with hr | hr
    · exact Or.inr (Or.inr ⟨q, hq, _, m, rfl, hqv, hr⟩)
    · exact Or.inl hr
  | refused _ | keep _ _ _ _ => exact Or.inl hr

theorem VmLook.shaped (h : VmLook cfg o v t a) (hu : RFShaped u) :
    RFShaped ((vmThread cfg o v ethAddr).act a u) := by
  intro r hr
  rcases h.mem_act hr with hr | ⟨-, hr⟩ | ⟨q, -, x, -, -, hr⟩
  · exact hu r hr
  all_goals exact ⟨_, hr⟩

theorem DpLook.shaped (h : DpLook cfg o d s t a) (hu : RFShaped u) :
    RFShaped ((dpThread cfg o s d).act a u) := by
  intro r hr
  rcases h.mem_act hr with hr | ⟨-, hr⟩ | ⟨q, -, x, m, -, -, hr⟩
  · exact hu r hr
  all_goals exact ⟨_, hr⟩

theorem VmLook.no_dp (h : VmLook cfg o v t a) (ht : ∀ r ∈ t.rows, r.val.dp ≠ some d)
    (hu : ∀ r ∈ u.rows, r.val.dp ≠ some d) :
    ∀ r ∈ ((vmThread cfg o v ethAddr).act a u).rows, r.val.dp ≠ some d := by
  intro r hr
  rcases h.mem_act hr with hr | ⟨-, hr⟩ | ⟨q, hq, x, -, hqx, hr⟩
  · exact hu r hr
  · simp [hr, RFShape.dp]
  · have := ht q hq
    rw [hqx, RFShape.entry_dp] at this
    rw [hr, RFShape.entry_dp]
    exact this

theorem DpLook.no_vm (h : DpLook cfg o d s t a) (ht : ∀ r ∈ t.rows, r.val.vm ≠ some v)
    (hu : ∀ r ∈ u.rows, r.val.vm ≠ some v) :
    ∀ r ∈ ((dpThread cfg o s d).act a u).rows, r.val.vm ≠ some v := by
  intro r hr
  rcases h.mem_act hr with hr | ⟨-, hr⟩ | ⟨q, hq, x, m, -, hqx, hr⟩
  · exact hu r hr
  · simp [hr, RFShape.vm]
  · have := ht q hq
    rw [hqx, RFShape.entry_vm] at this
    rw [hr, RFShape.entry_vm]
    exact this

theorem VmLook.paired (h : VmLook cfg o v t a) (hu : ∀ r ∈ u.rows, r.val.vm ≠ some v)
    (hp : Paired ((vmThread cfg o v ethAddr).act a u) v d) :
    ∃ q ∈ t.rows, a = .registerAssociated q ∧ q.val = (RFShape.idleDp d).entry := by
  obtain ⟨r, hr, hv, hd⟩ := hp
  rcases h.mem_act hr with hr | ⟨-, hr⟩ | ⟨q, hq, x, ha, hqx, hr⟩
  · exact absurd hv (hu r hr)
  · simp [hr, RFShape.dp] at hd
  · rw [hr, RFShape.entry_dp, RFShape.dp, Option.some.injEq] at hd
    exact ⟨q, hq, ha, by rw [hqx, hd]⟩

theorem DpLook.paired (h : DpLook cfg o d s t a) (hu : ∀ r ∈ u.rows, r.val.dp ≠ some d)
    (hp : Paired ((dpThread cfg o s d).act a u) v d) :
    ∃ q ∈ t.rows, ∃ m, a = .registerAssociated q ∧ q.val = (RFShape.idleVm v m).entry := by
  obtain ⟨r, hr, hv, hd⟩ := hp
  rcases h.mem_act hr with hr | ⟨-, hr⟩ | ⟨q, hq, x, m, ha, hqx, hr⟩
  · exact absurd hd (hu r hr)
  · simp [hr, RFShape.vm] at hv
  · rw [hr, RFShape.entry_vm, RFShape.vm, Option.some.injEq] at hv
    exact ⟨q, hq, m, ha, by rw [hqx, hv]⟩

/-- A handler that finds the only row of the other port, idle, joins the two. -/
theorem VmLook.pairs (h : VmLook cfg o v t a) {c : Row RFConfigEntry} {q : Row RFEntry}
    (hc : RFConfig.getConfigForVmPort o cfg.config v.vmId v.vmPort = some c) (hq : q ∈ t.rows)
    (hqd : q.val = (RFShape.idleDp c.val.dp).entry) (honly : ∀ r ∈ t.rows, r.val.dp = some c.val.dp → r = q) :
    Paired ((vmThread cfg o v ethAddr).act a t) v c.val.dp := by
  have hdp : q.val.dp = some c.val.dp := by rw [hqd, RFShape.entry_dp, RFShape.dp]
  cases h with
  | idle hno => exact absurd hdp (hno c hc q hq)
  | join hc' hr hrd =>
    rw [hc, Option.some.injEq] at hc'
    subst hc'
    simp only [vmThread, hrd, RFShape.associate_vm]
    exact ⟨_, (Table.mem_put hr _ _).mpr (Or.inl rfl), by simp [RFShape.vm], by simp [RFShape.dp]⟩
  | keep hc' hr hrd hst =>
    rw [hc, Option.some.injEq] at hc'
    subst hc'
    rw [honly _ hr hrd, hqd, RFShape.entry_status] at hst
    exact absurd rfl hst

theorem DpLook.pairs (h : DpLook cfg o d s t a) (href : ¬ dpRefused cfg o s d.ctId d.dpId)
    {c : Row RFConfigEntry} {q : Row RFEntry} {m : Mac}
    (hc : RFConfig.getConfigForDpPort o cfg.config d.ctId d.dpId d.dpPort = some c) (hq : q ∈ t.rows)
    (hqv : q.val = (RFShape.idleVm c.val.vm m).entry)
    (honly : ∀ r ∈ t.rows, r.val.vm = some c.val.vm → r = q) :
    Paired ((dpThread cfg o s d).act a t) c.val.vm d := by
  have hvm : q.val.vm = some c.val.vm := by rw [hqv, RFShape.entry_vm, RFShape.vm]
  cases h with
  | refused h => exact absurd h href
  | idle _ hc' hno =>
    rw [hc, Option.some.injEq] at hc'
    subst hc'
    exact absurd hvm (hno q hq)
  | join _ hc' hr hrv =>
    rw [hc, Option.some.injEq] at hc'
    subst hc'
    simp only [dpThread, hrv, RFShape.associate_dp]
    exact ⟨_, (Table.mem_put hr _ _).mpr (Or.inl rfl), by simp [RFShape.vm], by simp [RFShape.dp]⟩
  | keep hc' hr hrv hst =>
    rw [hc, Option.some.injEq] at hc'
    subst hc'
    rw [honly _ hr hrv, hqv, RFShape.entry_status] at hst
    exact absurd rfl hst

theorem only_new_row {α : Type} {key : RFEntry → Option α} {k : α} {e : RFEntry}
    (hno : ∀ r ∈ t.rows, key r.val ≠ some k) (r : Row RFEntry) (hr : r ∈ (t.add e).rows)
    (hk : key r.val = some k) :
    r = ⟨t.nextId + 1, e⟩ := by
  rcases (Table.mem_add t e r).mp hr with hr | hr
  · exact absurd hk (hno r hr)
  · exact hr

end Tables

/-! ## Outcomes -/

section Outcomes

variable {cfg : Config} {oV oD : Order} {v : VmPort} {ethAddr : Mac} {d : DpPort} {s : Server}

theorem VmLook.idle_of_waits {t : RFTable} {a : RegisterAction} (h : VmLook cfg oV v t a)
    (hwait : ∀ c, RFConfig.getConfigForVmPort oV cfg.config v.vmId v.vmPort = some c →
      ∀ r ∈ t.rows, r.val.dp ≠ some c.val.dp) : a = .registerIdle := by
  cases h with
  | idle _ => rfl
  | join hl hr hrd => exact absurd (by rw [hrd, RFShape.entry_dp, RFShape.dp]) (hwait _ hl _ hr)
  | keep hl hr hrd _ => exact absurd hrd (hwait _ hl _ hr)

theorem DpLook.idle_of_waits {t : RFTable} {a : RegisterAction} (h : DpLook cfg oD d s t a)
    (href : ¬ dpRefused cfg oD s d.ctId d.dpId) {c : Row RFConfigEntry}
    (hc : RFConfig.getConfigForDpPort oD cfg.config d.ctId d.dpId d.dpPort = some c)
    (hwait : ∀ r ∈ t.rows, r.val.vm ≠ some c.val.vm) : a = .registerIdle := by
  cases h with
  | refused h => exact absurd h href
  | idle _ _ _ => rfl
  | join _ hl hr hrv =>
    rw [hc, Option.some.injEq] at hl
    subst hl
    exact absurd (by rw [hrv, RFShape.entry_vm, RFShape.vm]) (hwait _ hr)
  | keep hl hr hrv _ =>
    rw [hc, Option.some.injEq] at hl
    subst hl
    exact absurd hrv (hwait _ hr)

theorem paired_client_first (hj : cfg.Joins v d) (hs : RFShaped s.rftable)
    (hv : ∀ r ∈ s.rftable.rows, r.val.vm ≠ some v) (hd : ∀ r ∈ s.rftable.rows, r.val.dp ≠ some d) :
    Paired ((dpThread cfg oD s d).whole ((vmThread cfg oV v ethAddr).whole s.rftable)) v d ↔
      ¬ dpRefused cfg oD s d.ctId d.dpId ∧
      (∀ c, RFConfig.getConfigForVmPort oV cfg.config v.vmId v.vmPort = some c →
        ∀ r ∈ s.rftable.rows, r.val.dp ≠ some c.val.dp) ∧
      ∃ c, RFConfig.getConfigForDpPort oD cfg.config d.ctId d.dpId d.dpPort = some c ∧ c.val.vm = v := by
  have hlook := @vmThread_looks cfg oV v ethAddr _ hs
  have hshaped : RFShaped ((vmThread cfg oV v ethAddr).whole s.rftable) := hlook.shaped hs
  have hfree : ∀ r ∈ ((vmThread cfg oV v ethAddr).whole s.rftable).rows, r.val.dp ≠ some d :=
    hlook.no_dp hd hd
  have hnext := dpThread_looks (o := oD) (s := s) hj hshaped
  constructor
  · intro hp
    obtain ⟨q, hq, m, ha, hqv⟩ := hnext.paired hfree hp
    have hidle : (vmThread cfg oV v ethAddr).look s.rftable = .registerIdle := by
      rcases hlook.mem_act hq with hq | ⟨h, -⟩ | ⟨r, -, x, -, -, hq⟩
      · exact absurd (by rw [hqv, RFShape.entry_vm, RFShape.vm]) (hv q hq)
      · exact h
      · rw [hqv] at hq
        exact absurd (RFShape.entry_injective hq) (by simp)
    rw [hidle] at hlook
    rw [ha] at hnext
    obtain ⟨hwait⟩ := hlook
    obtain _ | _ | ⟨href, hc, -, hqc⟩ := hnext
    have hsame := RFShape.entry_injective (hqv.symm.trans hqc)
    rw [RFShape.idleVm.injEq] at hsame
    exact ⟨href, hwait, _, hc, hsame.1.symm⟩
  · rintro ⟨href, hwait, c, hc, rfl⟩
    have hadd : (vmThread cfg oV c.val.vm ethAddr).whole s.rftable =
        s.rftable.add (RFShape.idleVm c.val.vm ethAddr).entry := by
      rw [Thread.whole, hlook.idle_of_waits hwait]
      rfl
    rw [hadd] at hnext ⊢
    exact hnext.pairs href hc ((Table.mem_add _ _ _).mpr (Or.inr rfl)) rfl (only_new_row hv)

theorem paired_proxy_first (hj : cfg.Joins v d) (hs : RFShaped s.rftable)
    (hv : ∀ r ∈ s.rftable.rows, r.val.vm ≠ some v) (hd : ∀ r ∈ s.rftable.rows, r.val.dp ≠ some d) :
    Paired ((vmThread cfg oV v ethAddr).whole ((dpThread cfg oD s d).whole s.rftable)) v d ↔
      ¬ dpRefused cfg oD s d.ctId d.dpId ∧
      (∀ c, RFConfig.getConfigForDpPort oD cfg.config d.ctId d.dpId d.dpPort = some c →
        ∀ r ∈ s.rftable.rows, r.val.vm ≠ some c.val.vm) ∧
      ∃ c, RFConfig.getConfigForVmPort oV cfg.config v.vmId v.vmPort = some c ∧ c.val.dp = d := by
  have hlook := dpThread_looks (o := oD) (s := s) hj hs
  have hshaped : RFShaped ((dpThread cfg oD s d).whole s.rftable) := hlook.shaped hs
  have hfree : ∀ r ∈ ((dpThread cfg oD s d).whole s.rftable).rows, r.val.vm ≠ some v := hlook.no_vm hv hv
  have hnext := @vmThread_looks cfg oV v ethAddr _ hshaped
  constructor
  · intro hp
    obtain ⟨q, hq, ha, hqd⟩ := hnext.paired hfree hp
    have hidle : (dpThread cfg oD s d).look s.rftable = .registerIdle := by
      rcases hlook.mem_act hq with hq | ⟨h, -⟩ | ⟨r, -, x, m, -, -, hq⟩
      · exact absurd (by rw [hqd, RFShape.entry_dp, RFShape.dp]) (hd q hq)
      · exact h
      · rw [hqd] at hq
        exact absurd (RFShape.entry_injective hq) (by simp)
    rw [hidle] at hlook
    rw [ha] at hnext
    obtain _ | ⟨href, hl, hwait⟩ := hlook
    obtain _ | ⟨hc, -, hqc⟩ := hnext
    have hsame := RFShape.entry_injective (hqd.symm.trans hqc)
    rw [RFShape.idleDp.injEq] at hsame
    refine ⟨href, fun c hc' => ?_, _, hc, hsame.symm⟩
    rw [hl, Option.some.injEq] at hc'
    rw [← hc']
    exact hwait
  · rintro ⟨href, hwait, c, hc, rfl⟩
    obtain ⟨l, hl, -, hld⟩ := hj
    cases hc' : RFConfig.getConfigForDpPort oD cfg.config c.val.dp.ctId c.val.dp.dpId c.val.dp.dpPort with
    | none => exact absurd hld (RFConfig.getConfigForDpPort_none.mp hc' l hl)
    | some c' =>
      have hadd : (dpThread cfg oD s c.val.dp).whole s.rftable =
        s.rftable.add (RFShape.idleDp c.val.dp).entry := by
        rw [Thread.whole, hlook.idle_of_waits href hc' (hwait c' hc')]
        rfl
      rw [hadd] at hnext ⊢
      exact hnext.pairs hc ((Table.mem_add _ _ _).mpr (Or.inr rfl)) rfl (only_new_row hd)

theorem not_paired_crossed (hj : cfg.Joins v d) (hs : RFShaped s.rftable)
    (hv : ∀ r ∈ s.rftable.rows, r.val.vm ≠ some v) (hd : ∀ r ∈ s.rftable.rows, r.val.dp ≠ some d) :
    ¬ Paired ((dpThread cfg oD s d).act ((dpThread cfg oD s d).look s.rftable)
      ((vmThread cfg oV v ethAddr).whole s.rftable)) v d ∧
    ¬ Paired ((vmThread cfg oV v ethAddr).act ((vmThread cfg oV v ethAddr).look s.rftable)
      ((dpThread cfg oD s d).whole s.rftable)) v d := by
  have hvm := @vmThread_looks cfg oV v ethAddr _ hs
  have hdp := dpThread_looks (o := oD) (s := s) hj hs
  constructor
  · intro hp
    obtain ⟨q, hq, m, -, hqv⟩ := hdp.paired (hvm.no_dp hd hd) hp
    exact hv q hq (by rw [hqv, RFShape.entry_vm, RFShape.vm])
  · intro hp
    obtain ⟨q, hq, -, hqd⟩ := hvm.paired (hdp.no_vm hv hv) hp
    exact hd q hq (by rw [hqd, RFShape.entry_dp, RFShape.dp])

end Outcomes

/-! ## Every interleaving -/

section Interleavings

variable (cfg : Config) (oV oD : Order) (v : VmPort) (ethAddr : Mac) (d : DpPort) (s : Server)

/-- The race is on its course, and the threads know what they need to. -/
structure Racing (w : Winner) (x : Registering) : Prop where
  course : Course (vmThread cfg oV v ethAddr)
    (dpThread cfg oD s d) s.rftable w x.server.rftable x.vm.phase x.dp.phase
  line : ∀ c, x.vm = .lookup c → ∃ r, RFConfig.getConfigForVmPort oV cfg.config v.vmId v.vmPort = some r ∧
    r.val = c
  known : Known cfg oD d s x.server x.dp

/-- At some point the client's thread was done and the other had not looked yet. -/
def ClientFirst (es : List Listener) : Prop :=
  ∃ before, before <+: es ∧ (run (step cfg oV oD v ethAddr d) (start s) before).vm.phase = .done ∧
    (run (step cfg oV oD v ethAddr d) (start s) before).dp.phase = .fresh

def ProxyFirst (es : List Listener) : Prop :=
  ∃ before, before <+: es ∧ (run (step cfg oV oD v ethAddr d) (start s) before).vm.phase = .fresh ∧
    (run (step cfg oV oD v ethAddr d) (start s) before).dp.phase = .done

variable {cfg oV oD v ethAddr d s}

theorem vmStep_frame (x : Server) (pc : VmPc) :
    (vmStep cfg oV v ethAddr x pc).1.isltable = x.isltable ∧
      (vmStep cfg oV v ethAddr x pc).1.routeModTranslator = x.routeModTranslator := by
  unfold vmStep
  split
  · split <;> exact ⟨rfl, rfl⟩
  · split
    · exact ⟨rfl, rfl⟩
    · split <;> exact ⟨rfl, rfl⟩
  · exact ⟨rfl, rfl⟩
  · split <;> exact ⟨rfl, rfl⟩
  · exact ⟨rfl, rfl⟩
  · exact ⟨rfl, rfl⟩

theorem vmStep_line (x : Server) (pc : VmPc) (c : RFConfigEntry)
    (h : (vmStep cfg oV v ethAddr x pc).2 = .lookup c) :
    ∃ r, RFConfig.getConfigForVmPort oV cfg.config v.vmId v.vmPort = some r ∧ r.val = c := by
  unfold vmStep at h
  split at h
  · split at h
    · cases h
    · rename_i r hr
      rw [VmPc.lookup.injEq] at h
      exact ⟨r, hr, h⟩
  · split at h
    · cases h
    · split at h <;> cases h
  · cases h
  · split at h <;> cases h
  · cases h
  · cases h

theorem Known.congr {x y : Server} {pc : DpPc} (h : Known cfg oD d s x pc) (hi : y.isltable = x.isltable)
    (ht : y.routeModTranslator = x.routeModTranslator) : Known cfg oD d s y pc := by
  cases pc <;> simp only [Known, hi, ht] at h ⊢ <;> exact h

theorem isDpRegistered_iff {o : Order} {t : RFTable} {c d : Nat} :
    RFTable.isDpRegistered o t c d = true ↔ ∃ r ∈ t.rows, Server.onDp c d r.val = true := by
  rw [RFTable.isDpRegistered, Bool.not_eq_true', List.isEmpty_eq_false_iff_exists_mem]
  simp [RFTable.getDpEntries, Server.onDp]

theorem vmThread_registered (hs : RFShaped s.rftable) :
    RFTable.isDpRegistered oD ((vmThread cfg oV v ethAddr).whole s.rftable) d.ctId d.dpId =
      RFTable.isDpRegistered oD s.rftable d.ctId d.dpId := by
  have hlook := @vmThread_looks cfg oV v ethAddr _ hs
  rw [Bool.eq_iff_iff, isDpRegistered_iff, isDpRegistered_iff]
  constructor
  · rintro ⟨r, hr, hon⟩
    rcases hlook.mem_act hr with hr | ⟨-, hr⟩ | ⟨q, hq, x, -, hqx, hr⟩
    · exact ⟨r, hr, hon⟩
    · simp [hr, RFShape.entry, Server.onDp] at hon
    · refine ⟨q, hq, ?_⟩
      rw [hqx, onDp_entry]
      rwa [hr, onDp_entry] at hon
  · rintro ⟨r, hr, hon⟩
    unfold Thread.whole
    revert hlook
    generalize (vmThread cfg oV v ethAddr).look s.rftable = a
    intro hlook
    cases hlook with
    | idle _ => exact ⟨r, (Table.mem_add _ _ _).mpr (Or.inl hr), hon⟩
    | @join c q _ hq hqd =>
      simp only [vmThread, hqd, RFShape.associate_vm]
      by_cases hrq : r = q
      · refine ⟨_, (Table.mem_put hq _ _).mpr (Or.inl rfl), ?_⟩
        rw [hrq, hqd, onDp_entry] at hon
        rw [onDp_entry]
        exact hon
      · exact ⟨r, (Table.mem_put hq _ _).mpr (Or.inr ⟨hr, hrq⟩), hon⟩
    | keep _ _ _ _ => exact ⟨r, hr, hon⟩

theorem Racing.step (hs : RFShaped s.rftable) {w : Winner} {x : Registering}
    (h : Racing cfg oV oD v ethAddr d s w x) (e : Listener) :
    ∃ w', Racing cfg oV oD v ethAddr d s w' (Registering.step cfg oV oD v ethAddr d x e) ∧
      (w' = .left ↔ w = .left ∨ ((Registering.step cfg oV oD v ethAddr d x e).vm.phase = .done ∧
        (Registering.step cfg oV oD v ethAddr d x e).dp.phase = .fresh)) ∧
      (w' = .right ↔ w = .right ∨ ((Registering.step cfg oV oD v ethAddr d x e).vm.phase = .fresh ∧
        (Registering.step cfg oV oD v ethAddr d x e).dp.phase = .done)) := by
  cases e with
  | client =>
    obtain ⟨w', hc, hl, hr⟩ := h.course.step (vmStep_step _ _ x.vm h.line)
    obtain ⟨hi, ht⟩ := @vmStep_frame cfg oV v ethAddr x.server x.vm
    exact ⟨w', ⟨hc, fun c hc => vmStep_line _ _ c hc, h.known.congr hi ht⟩, hl, hr⟩
  | proxy =>
    obtain ⟨w', hc, hl, hr⟩ := h.course.step (dpStep_step _ _ x.dp h.known)
    refine ⟨w', ⟨hc, h.line, dpStep_known x.dp h.known fun hfresh => ?_⟩, hl, hr⟩
    have hcourse := h.course
    rw [hfresh] at hcourse
    rcases hcourse.eq_of_fresh with he | he
    · rw [he]
    · rw [he, vmThread_registered hs]

theorem clientFirst_snoc (es : List Listener) (e : Listener) :
    ClientFirst cfg oV oD v ethAddr d s (es ++ [e]) ↔ ClientFirst cfg oV oD v ethAddr d s es ∨
      ((run (Registering.step cfg oV oD v ethAddr d) (start s) (es ++ [e])).vm.phase = .done ∧
        (run (Registering.step cfg oV oD v ethAddr d) (start s) (es ++ [e])).dp.phase = .fresh) := by
  simp only [ClientFirst, List.prefix_concat_iff, or_and_right, exists_or, exists_eq_left]
  exact or_comm

theorem proxyFirst_snoc (es : List Listener) (e : Listener) :
    ProxyFirst cfg oV oD v ethAddr d s (es ++ [e]) ↔ ProxyFirst cfg oV oD v ethAddr d s es ∨
      ((run (Registering.step cfg oV oD v ethAddr d) (start s) (es ++ [e])).vm.phase = .fresh ∧
        (run (Registering.step cfg oV oD v ethAddr d) (start s) (es ++ [e])).dp.phase = .done) := by
  simp only [ProxyFirst, List.prefix_concat_iff, or_and_right, exists_or, exists_eq_left]
  exact or_comm

theorem run_racing (hs : RFShaped s.rftable) (es : List Listener) :
    ∃ w, Racing cfg oV oD v ethAddr d s w (run (Registering.step cfg oV oD v ethAddr d) (start s) es) ∧
      (w = .left ↔ ClientFirst cfg oV oD v ethAddr d s es) ∧ (w = .right ↔
        ProxyFirst cfg oV oD v ethAddr d s es) := by
  induction es using List.reverseRecOn with
  | nil =>
    refine ⟨.undecided, ⟨.start, by simp [start], ⟨rfl, rfl⟩⟩, ?_, ?_⟩
    · simp [ClientFirst, start, VmPc.phase]
    · simp [ProxyFirst, start, DpPc.phase]
  | append_singleton es e ih =>
    obtain ⟨w, hw, hl, hr⟩ := ih
    obtain ⟨w', hw', hl', hr'⟩ := hw.step hs e
    rw [← run_snoc (Registering.step cfg oV oD v ethAddr d)] at hw' hl' hr'
    exact ⟨w', hw', by rw [hl', hl, clientFirst_snoc], by rw [hr', hr, proxyFirst_snoc]⟩

end Interleavings

/-- The two ends of a line find each other exactly if one of the handlers is done before the other one
looks. A line that shares a port with another adds that both handlers must go by it. -/
theorem registrations_pair_iff (cfg : Config) (h : History) (oV oD : Order) (line : Row RFConfigEntry)
    (hline : line ∈ cfg.config.rows) (ethAddr : Mac) (es : List Listener) :
    let s := run (Server.step cfg) Server.init h
    let v := line.val.vm
    let d := line.val.dp
    let x := run (step cfg oV oD v ethAddr d) (start s) es
    (∀ r ∈ s.rftable.rows, r.val.vm ≠ some v ∧ r.val.dp ≠ some d) → x.vm = .done → x.dp = .done →
    (Paired x.server.rftable v d ↔ ¬ dpRefused cfg oD s d.ctId d.dpId ∧
      ((ClientFirst cfg oV oD v ethAddr d s es ∧
        (∀ c, RFConfig.getConfigForVmPort oV cfg.config v.vmId v.vmPort = some c →
          ∀ r ∈ s.rftable.rows, r.val.dp ≠ some c.val.dp) ∧
        ∃ c, RFConfig.getConfigForDpPort oD cfg.config d.ctId d.dpId d.dpPort = some c ∧ c.val.vm = v) ∨
      (ProxyFirst cfg oV oD v ethAddr d s es ∧
        (∀ c, RFConfig.getConfigForDpPort oD cfg.config d.ctId d.dpId d.dpPort = some c →
          ∀ r ∈ s.rftable.rows, r.val.vm ≠ some c.val.vm) ∧
        ∃ c, RFConfig.getConfigForVmPort oV cfg.config v.vmId v.vmPort = some c ∧ c.val.dp = d))) := by
  intro s v d x hfree hvm hdp
  have hj : cfg.Joins v d := ⟨line, hline, rfl, rfl⟩
  have hs : RFShaped s.rftable := (run_shaped cfg h).1
  have hv : ∀ r ∈ s.rftable.rows, r.val.vm ≠ some v := fun r hr => (hfree r hr).1
  have hd : ∀ r ∈ s.rftable.rows, r.val.dp ≠ some d := fun r hr => (hfree r hr).2
  obtain ⟨w, hw, hl, hr⟩ := @run_racing cfg oV oD v ethAddr d s hs es
  have hcourse := hw.course
  rw [hvm, hdp] at hcourse
  rcases hcourse.outcome with ⟨rfl, ht⟩ | ⟨rfl, ht⟩ | ⟨rfl, ht⟩
  · rw [ht, paired_client_first hj hs hv hd]
    simp only [← hl, ← hr, reduceCtorEq, true_and, false_and, or_false]
  · rw [ht, paired_proxy_first hj hs hv hd]
    simp only [← hl, ← hr, reduceCtorEq, true_and, false_and, false_or]
  · simp only [← hl, ← hr, reduceCtorEq, false_and, or_false, and_false, iff_false]
    obtain ⟨h1, h2⟩ := @not_paired_crossed cfg oV oD v ethAddr d s hj hs hv hd
    rcases ht with ht | ht
    · rw [ht]; exact h1
    · rw [ht]; exact h2

/-- The client's thread runs first. -/
theorem registrations_pair_in_turn :
    let o := Order.insertion
    let es : List Listener := [.client, .client, .client, .proxy, .proxy, .proxy, .proxy, .proxy]
    Paired (run (step oneLine o o ⟨1, 1⟩ 7 ⟨0, 5, 3⟩) (start Server.init) es).server.rftable ⟨1,
      1⟩ ⟨0, 5, 3⟩ := by
  intro o es
  refine (registrations_pair_iff oneLine [] o o ⟨1001, ⟨1, 1, 0, 5, 3, none⟩⟩ ?_ 7 es ?_ rfl rfl).mpr
    ⟨?_, Or.inl ⟨⟨es.take 3, List.take_prefix 3 es, rfl, rfl⟩, ?_, ?_⟩⟩
  · simp [oneLine, memoryTable, Table.empty]
  · simp [Server.init, memoryTable]
  · rintro (h | ⟨h, -⟩)
    · revert h
      decide
    · revert h
      decide
  · simp [Server.init, memoryTable]
  · exact ⟨⟨1001, ⟨1, 1, 0, 5, 3, none⟩⟩, by decide, rfl⟩

/-- Both look before either writes. The two rows stay idle. -/
theorem registrations_miss :
    let o := Order.insertion
    let es : List Listener := [.client, .client, .proxy, .proxy, .proxy, .proxy, .client, .proxy]
    let x := run (step oneLine o o ⟨1, 1⟩ 7 ⟨0, 5, 3⟩) (start Server.init) es
    x.vm = .done ∧ x.dp = .done ∧ ¬ Paired x.server.rftable ⟨1, 1⟩ ⟨0, 5, 3⟩ := by
  intro o es x
  have hrows : x.server.rftable.rows = [⟨1001, (RFShape.idleVm ⟨1, 1⟩ 7).entry⟩,
      ⟨1002, (RFShape.idleDp ⟨0, 5, 3⟩).entry⟩] := by decide
  refine ⟨rfl, rfl, ?_⟩
  rintro ⟨r, hr, hv, hd⟩
  rw [hrows] at hr
  simp only [List.mem_cons, List.not_mem_nil, or_false] at hr
  rcases hr with rfl | rfl
  · cases hd
  · cases hv

end Registering

end RouteFlow
