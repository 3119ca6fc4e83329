import RouteFlow.Isl
import RouteFlow.Ports

/-!
# A datapath goes down

`set_dp_down` walks over a snapshot and looks each row up again, and then passes twice over
RFISLTable. Every row it should change is changed once. What it leaves of a row need not be a row
that `get_status` understands.
-/

namespace RouteFlow

open Store Run

/-! ## Effect and frame -/

/-- The ports of client `v` that are paired with a port of the datapath, once for each row. -/
def RFTable.pairedPorts (t : RFTable) (c d v : Nat) : List VmPort :=
  (t.rows.filterMap fun r => if Server.onDp c d r.val then r.val.vm else none).filter fun x => x.vmId == v

section Effect

variable (o : Order) {s : Server} (c d : Nat)

theorem setDpDown_resets (hs : RFShaped s.rftable) (v : Nat) :
    ∃ sent, (Server.setDpDown o s c d).toClient v = s.toClient v ++ sent ∧
      sent.Perm ((s.rftable.pairedPorts c d v).map fun x => ⟨x.vmId, x.vmPort, .reset⟩) := by
  obtain ⟨visits, hperm, hsent⟩ := setDpDown_toClient o s c d
  refine ⟨_, hsent v, (hperm.filterMap _).trans (List.Perm.of_eq ?_)⟩
  rw [List.filterMap_filter, RFTable.pairedPorts, List.filter_filterMap, List.map_filterMap]
  refine List.filterMap_congr fun r hr => ?_
  obtain ⟨sh, hsh⟩ := hs r hr
  rw [resetOf, hsh, RFShape.entry_vm]
  split
  · cases sh with
    | idleVm x m | associated x m _ | active x m _ _ _ =>
      by_cases hv : x.vmId = v <;> simp [RFShape.entry, RFShape.vm, Option.filter, hv]
    | empty | idleDp _ => rfl
  · rfl

theorem onDp_iff (e : RFEntry) : Server.onDp c d e = true ↔ e.ctId = some c ∧ e.dpId = some d := by
  simp [Server.onDp]

theorem setDpDown_no_row {r : Row RFEntry} (hr : r ∈ (Server.setDpDown o s c d).rftable.rows) :
    ¬ (r.val.ctId = some c ∧ r.val.dpId = some d) := by
  rw [Server.setDpDown_rftable] at hr
  obtain ⟨q, -, rfl⟩ := List.mem_map.mp hr
  unfold Table.changeWhere
  split
  · simp [RFEntry.makeIdle]
  · rename_i hon
    rwa [onDp_iff] at hon

theorem setDpDown_keeps {r : Row RFEntry} (hr : r ∈ s.rftable.rows)
    (hon : ¬ (r.val.ctId = some c ∧ r.val.dpId = some d)) : r ∈ (Server.setDpDown o s c d).rftable.rows := by
  rw [Server.setDpDown_rftable]
  rw [← onDp_iff] at hon
  exact List.mem_map.mpr ⟨r, hr, if_neg hon⟩

theorem setDpDown_idles (hs : RFShaped s.rftable) {r : Row RFEntry} (hr : r ∈ s.rftable.rows) {v : VmPort}
    (hv : r.val.vm = some v) (hon : r.val.ctId = some c ∧ r.val.dpId = some d) :
    ∃ m, r.val.ethAddr = some m ∧ ⟨r.id, (RFShape.idleVm v m).entry⟩ ∈
      (Server.setDpDown o s c d).rftable.rows := by
  obtain ⟨sh, hsh⟩ := hs r hr
  rw [hsh, RFShape.entry_vm] at hv
  have hdown : ∃ m, sh.eth = some m ∧ sh.down = .idleVm v m := by
    cases sh with
    | idleVm x m | associated x m _ | active x m _ _ _ =>
      rw [RFShape.vm, Option.some.injEq] at hv
      exact ⟨m, rfl, by rw [hv, RFShape.down]⟩
    | empty | idleDp _ => cases hv
  obtain ⟨m, hm, hidle⟩ := hdown
  refine ⟨m, by rw [hsh, RFShape.entry_eth, hm], ?_⟩
  rw [Server.setDpDown_rftable]
  refine List.mem_map.mpr ⟨r, hr, ?_⟩
  rw [Table.changeWhere, if_pos ((onDp_iff c d _).mpr hon), hsh, RFShape.entry_makeIdle, hidle]

theorem setDpDown_ids :
    (Server.setDpDown o s c d).rftable.rows.map (fun r => r.id) = s.rftable.rows.map (fun r => r.id) ∧
      (Server.setDpDown o s c d).isltable.rows.map (fun r => r.id) = s.isltable.rows.map fun r => r.id := by
  have hid : ∀ {ρ : Type} (p : ρ → Bool) (f : ρ → ρ) (r : Row ρ), (Table.changeWhere p f r).id = r.id := by
    intro ρ p f r
    unfold Table.changeWhere
    split <;> rfl
  rw [Server.setDpDown_rftable, setDpDown_isltable, List.map_map, List.map_map]
  exact ⟨List.map_congr_left fun r _ => hid _ _ r,
    List.map_congr_left fun r _ => (hid _ _ _).trans (hid _ _ r)⟩

/-! RFISLTable, row by row. -/

theorem RFISLShape.near_on {sh : RFISLShape} :
    sh.entry.ctId = some c ∧ sh.entry.dpId = some d ↔ ∃ a, sh.near = some a ∧ a.ctId = c ∧ a.dpId = d := by
  obtain ⟨v, _ | a, f⟩ := sh <;> simp [RFISLShape.entry]

theorem RFISLShape.far_on {sh : RFISLShape} :
    sh.entry.remCt = some c ∧ sh.entry.remId = some d ↔ ∃ a, sh.far = some a ∧ a.ctId = c ∧ a.dpId = d := by
  obtain ⟨v, n, _ | a⟩ := sh <;> simp [RFISLShape.entry]

theorem RFISLShape.afterDown_of_off {sh : RFISLShape}
    (hn : ∀ a, sh.near = some a → ¬ (a.ctId = c ∧ a.dpId = d))
    (hf : ∀ a, sh.far = some a → ¬ (a.ctId = c ∧ a.dpId = d)) : sh.afterDown c d = sh := by
  refine RFISLShape.ext rfl (Option.ext fun a => ?_) (Option.ext fun a => ?_)
  · rw [RFISLShape.afterDown_near]
    exact ⟨And.left, fun h => ⟨h, hn a h⟩⟩
  · rw [RFISLShape.afterDown_far]
    exact ⟨And.left, fun h => ⟨h, hf a h⟩⟩

theorem mem_setDpDown_isltable (hs : IslShaped s.isltable) {q : Row RFISLEntry} :
    q ∈ (Server.setDpDown o s c d).isltable.rows ↔
      ∃ r ∈ s.isltable.rows, ∃ sh : RFISLShape, r.val = sh.entry ∧
      q = ⟨r.id, (sh.afterDown c d).entry⟩ := by
  have hrow : ∀ (i : Nat) (sh : RFISLShape),
    Table.changeWhere (fun e => e.remCt == some c && e.remId == some d)
      (fun e => e.makeIdle .rfislIdleDpPort)
        (Table.changeWhere (fun e => e.ctId == some c && e.dpId == some d)
        (fun e => e.makeIdle .rfislIdleRemote) ⟨i, sh.entry⟩) = ⟨i, (sh.afterDown c d).entry⟩ := by
    intro i sh
    rw [changeWhere_near, changeWhere_far]
    rfl
  rw [setDpDown_isltable, List.mem_map]
  constructor
  · rintro ⟨r, hr, rfl⟩
    obtain ⟨sh, hsh⟩ := hs r hr
    exact ⟨r, hr, sh, hsh, by rw [← hrow, ← hsh]⟩
  · rintro ⟨r, hr, sh, hsh, rfl⟩
    exact ⟨r, hr, by rw [← hrow, ← hsh]⟩

end Effect

/-- The rows of the datapath lose that end and nothing else changes, whatever duplicates there are. -/
theorem datapath_down_effect (cfg : Config) (h : History) (o : Order) (c d : Nat) :
    let s := run (Server.step cfg) Server.init h
    let s' := Server.setDpDown o s c d
    (s'.rftable.rows.map (fun r => r.id) = s.rftable.rows.map (fun r => r.id) ∧
      s'.isltable.rows.map (fun r => r.id) = s.isltable.rows.map fun r => r.id) ∧
    (∀ r ∈ s'.rftable.rows, ¬ (r.val.ctId = some c ∧ r.val.dpId = some d)) ∧
    (∀ r ∈ s'.isltable.rows, ¬ (r.val.ctId = some c ∧ r.val.dpId = some d) ∧
      ¬ (r.val.remCt = some c ∧ r.val.remId = some d)) ∧
    (∀ r ∈ s.rftable.rows, ∀ v, r.val.vm = some v → r.val.ctId = some c ∧ r.val.dpId = some d →
      ∃ m, r.val.ethAddr = some m ∧ ⟨r.id, (RFShape.idleVm v m).entry⟩ ∈ s'.rftable.rows) ∧
    (∀ v, ∃ sent, s'.toClient v = s.toClient v ++ sent ∧
      sent.Perm ((s.rftable.pairedPorts c d v).map fun x => ⟨x.vmId, x.vmPort, .reset⟩)) ∧
    (∀ r ∈ s.isltable.rows, ∀ a b, r.val.near = some a → r.val.far = some b →
      ¬ (a.ctId = c ∧ a.dpId = d) → b.ctId = c ∧ b.dpId = d →
        ⟨r.id, RFISLShape.entry ⟨r.val.vmId, some a, none⟩⟩ ∈ s'.isltable.rows) ∧
    (∀ r ∈ s.rftable.rows, ¬ (r.val.ctId = some c ∧ r.val.dpId = some d) → r ∈ s'.rftable.rows) ∧
    ∀ r ∈ s.isltable.rows, ¬ (r.val.ctId = some c ∧ r.val.dpId = some d) →
      ¬ (r.val.remCt = some c ∧ r.val.remId = some d) → r ∈ s'.isltable.rows := by
  intro s s'
  obtain ⟨hs, hi⟩ := run_shaped cfg h
  refine ⟨setDpDown_ids o c d, fun r hr => setDpDown_no_row o c d hr, ?_,
    fun r hr v hv hon => setDpDown_idles o c d hs hr hv hon, setDpDown_resets o c d hs, ?_,
    fun r hr hon => setDpDown_keeps o c d hr hon, ?_⟩
  · intro q hq
    obtain ⟨r, hr, sh, hsh, rfl⟩ := (mem_setDpDown_isltable o c d hi).mp hq
    rw [RFISLShape.near_on, RFISLShape.far_on]
    constructor
    · rintro ⟨a, ha, hon⟩
      exact (RFISLShape.afterDown_near.mp ha).2 hon
    · rintro ⟨a, ha, hon⟩
      exact (RFISLShape.afterDown_far.mp ha).2 hon
  · intro r hr a b hn hf hoff hon
    obtain ⟨sh, hsh⟩ := hi r hr
    rw [hsh, RFISLShape.entry_near] at hn
    rw [hsh, RFISLShape.entry_far] at hf
    refine (mem_setDpDown_isltable o c d hi).mpr ⟨r, hr, sh, hsh, ?_⟩
    have hdown : sh.afterDown c d = ⟨sh.vmId, some a, none⟩ := by
      refine RFISLShape.ext rfl (RFISLShape.afterDown_near.mpr ⟨hn, hoff⟩) ?_
      simp [RFISLShape.afterDown, hf, hon]
    rw [hdown, hsh]
    rfl
  · intro r hr hn hf
    obtain ⟨sh, hsh⟩ := hi r hr
    rw [hsh, RFISLShape.near_on, not_exists] at hn
    rw [hsh, RFISLShape.far_on, not_exists] at hf
    have hsame := RFISLShape.afterDown_of_off c d (fun a ha hon => hn a ⟨ha, hon⟩)
      fun a ha hon => hf a ⟨ha, hon⟩
    refine (mem_setDpDown_isltable o c d hi).mpr ⟨r, hr, sh, hsh, ?_⟩
    rw [hsame, ← hsh]

/-! ## What rows are left -/

/-- The entry is of one kind: an idle port of a VM or of a datapath, or both, mapped or not. -/
def RFEntry.Meaningful (e : RFEntry) : Prop := ∃! sh : RFShape, sh ≠ .empty ∧ e = sh.entry

/-- The entry has its local end, its remote end, or both. -/
def RFISLEntry.Meaningful (e : RFISLEntry) : Prop :=
  ∃! sh : RFISLShape, (sh.near ≠ none ∨ sh.far ≠ none) ∧ e = sh.entry

/-- Every row is of one kind, and none is reported as complete without its two ends. -/
structure Server.Meaningful (s : Server) : Prop where
  rf : ∀ r ∈ s.rftable.rows, r.val.Meaningful
  isl : ∀ r ∈ s.isltable.rows, r.val.Meaningful
  rf_status : ∀ r ∈ s.rftable.rows, r.val.getStatus = .rfentryAssociated ∨ r.val.getStatus = .rfentryActive →
    r.val.vm ≠ none ∧ r.val.dp ≠ none
  isl_status : ∀ r ∈ s.isltable.rows, r.val.getStatus = .rfislActive → r.val.near ≠ none ∧
    r.val.far ≠ none

/-- A datapath goes down while all of its ports are associated, and no row has its only ends on it. -/
def LeavesNoEmptyRow (s : Server) : Order × Msg → Prop
  | (_, .datapathDown c d) =>
    (∀ r ∈ s.rftable.rows, r.val.ctId = some c ∧ r.val.dpId = some d → r.val.vm ≠ none) ∧
    ∀ r ∈ s.isltable.rows, ∃ a, r.val.Contains a ∧ ¬ (a.ctId = c ∧ a.dpId = d)
  | _ => True

theorem RFShape.entry_meaningful (sh : RFShape) : sh.entry.Meaningful ↔ sh ≠ .empty := by
  constructor
  · rintro ⟨x, ⟨hx, he⟩, -⟩
    rwa [RFShape.entry_injective he]
  · intro h
    exact ⟨sh, ⟨h, rfl⟩, fun y hy => RFShape.entry_injective hy.2.symm⟩

theorem RFISLShape.entry_meaningful (sh : RFISLShape) :
    sh.entry.Meaningful ↔ sh.near ≠ none ∨ sh.far ≠ none := by
  constructor
  · rintro ⟨x, ⟨hx, he⟩, -⟩
    rwa [RFISLShape.entry_injective he]
  · intro h
    exact ⟨sh, ⟨h, rfl⟩, fun y hy => RFISLShape.entry_injective hy.2.symm⟩

theorem Server.meaningful_iff {s : Server} (hs : RFShaped s.rftable) (hi : IslShaped s.isltable) :
    s.Meaningful ↔ RFShape.empty ∉ s.rftable.shapes ∧ ∀ sh ∈ s.isltable.shapes, sh.near ≠ none ∨
    sh.far ≠ none := by
  constructor
  · rintro ⟨hrf, hisl, -, -⟩
    constructor
    · rintro ⟨r, hr, he⟩
      have hm := hrf r hr
      rw [he, RFShape.entry_meaningful] at hm
      exact hm rfl
    · rintro sh ⟨r, hr, he⟩
      have hm := hisl r hr
      rwa [he, RFISLShape.entry_meaningful] at hm
  · rintro ⟨hrf, hisl⟩
    refine ⟨fun r hr => ?_, fun r hr => ?_, fun r hr hst => ?_, fun r hr hst => ?_⟩
    · obtain ⟨sh, he⟩ := hs r hr
      rw [he, RFShape.entry_meaningful]
      rintro rfl
      exact hrf ⟨r, hr, he⟩
    · obtain ⟨sh, he⟩ := hi r hr
      rw [he, RFISLShape.entry_meaningful]
      exact hisl sh ⟨r, hr, he⟩
    · obtain ⟨sh, he⟩ := hs r hr
      rw [he, RFShape.entry_status] at hst
      rw [he, RFShape.entry_vm, RFShape.entry_dp]
      cases sh with
      | empty => exact absurd ⟨r, hr, he⟩ hrf
      | idleVm | idleDp => simp [RFShape.status] at hst
      | associated | active => simp [RFShape.vm, RFShape.dp]
    · obtain ⟨sh, he⟩ := hi r hr
      have hsome := hisl sh ⟨r, hr, he⟩
      rw [he, RFISLShape.entry_status] at hst
      rw [he, RFISLShape.entry_near, RFISLShape.entry_far]
      obtain ⟨v, _ | a, _ | b⟩ := sh <;> simp_all [RFISLShape.status]

/-! One message. -/

section Step

variable {cfg : Config} {o : Order} {s : Server}

theorem RfEffect.no_empty {msg : Msg} {t : RFTable} (h : RfEffect cfg o s msg t)
    (hd : ∀ c d, msg ≠ .datapathDown c d) (hs : RFShape.empty ∉ s.rftable.shapes) :
    RFShape.empty ∉ t.shapes := by
  have inj := RFShape.entry_injective
  have add : ∀ sh : RFShape, sh ≠ .empty → RFShape.empty ∉ RFTable.shapes (s.rftable.add sh.entry) := by
    intro sh hne hmem
    rcases (Table.mem_view_add inj).mp hmem with he | hmem
    · exact hne he.symm
    · exact hs hmem
  have put : ∀ {q : Row RFEntry} (sh : RFShape), q ∈ s.rftable.rows → sh ≠ .empty →
      RFShape.empty ∉ RFTable.shapes (s.rftable.put q.id sh.entry) := by
    intro q sh hq hne hmem
    rcases Table.mem_view_of_put inj hq hmem with he | hmem
    · exact hne he.symm
    · exact hs hmem
  cases h with
  | vmIdle _ => exact add _ (by simp)
  | vmJoin hp _ => exact put _ (vmPeer_mem hp).1 (by simp)
  | dpIdle _ _ _ => exact add _ (by simp)
  | dpJoin _ hp _ => exact put _ (dpPeer_mem hp).1 (by simp)
  | down _ => exact absurd rfl (hd _ _)
  | map he _ => exact put _ (Table.first_some he).1 (by simp)
  | vmKeep | dpStop | dpIsl | dpKeep | mapKeep | routeMod | reply => exact hs

theorem IslEffect.no_empty {a b : IslEnd} {t t' : RFISLTable} (h : IslEffect a b t t')
    (ht : ∀ sh ∈ t.shapes, sh.near ≠ none ∨ sh.far ≠ none) :
    ∀ sh ∈ t'.shapes, sh.near ≠ none ∨ sh.far ≠ none := by
  intro sh hsh
  rcases h.origin hsh with hsh | ⟨hn, -⟩ | ⟨-, ⟨hn, -⟩ | ⟨hn, -⟩⟩
  · exact ht sh hsh
  all_goals exact Or.inl (by simp [hn])

theorem registerIslconf_no_empty (confs : List RFISLConfEntry) (s : Server) (c d p : Nat)
    (hi : IslShaped s.isltable) (hs : ∀ sh ∈ s.isltable.shapes, sh.near ≠ none ∨ sh.far ≠ none) :
    ∀ sh ∈ (Server.registerIslconf o s confs c d p).isltable.shapes, sh.near ≠ none ∨ sh.far ≠ none := by
  induction confs generalizing s with
  | nil => exact hs
  | cons conf rest ih =>
    have he := registerIslLine_effect o s hi c d p conf
    rw [Server.registerIslconf, List.foldl_cons]
    exact ih _ (he.shaped hi) (he.no_empty hs)

theorem step_isl_no_empty {msg : Msg} (hd : ∀ c d, msg ≠ .datapathDown c d) (hi : IslShaped s.isltable)
    (hs : ∀ sh ∈ s.isltable.shapes, sh.near ≠ none ∨ sh.far ≠ none) :
    ∀ sh ∈ (s.step cfg (o, msg)).isltable.shapes, sh.near ≠ none ∨ sh.far ≠ none := by
  have he := step_isl cfg o s msg
  revert he
  generalize (s.step cfg (o, msg)).isltable = t
  intro he
  cases he with
  | register ht _ _ => exact registerIslconf_no_empty _ _ _ _ _ (by rwa [ht]) (by rwa [ht])
  | down => exact absurd rfl (hd _ _)
  | other _ | frame _ _ => exact hs

theorem RFShape.afterDown_eq_empty {c d : Nat} {sh : RFShape} (hne : sh ≠ .empty) :
    sh.afterDown c d = .empty ↔ Server.onDp c d sh.entry = true ∧ sh.vm = none := by
  unfold RFShape.afterDown
  split
  · rename_i hon
    cases sh <;> simp_all [RFShape.down, RFShape.vm]
  · rename_i hon
    simp [hne, hon]

theorem down_no_empty_rf (hs : RFShaped s.rftable) (hne : RFShape.empty ∉ s.rftable.shapes) (c d : Nat) :
    RFShape.empty ∉ (Server.setDpDown o s c d).rftable.shapes ↔
      ∀ r ∈ s.rftable.rows, r.val.ctId = some c ∧ r.val.dpId = some d → r.val.vm ≠ none := by
  rw [RFTable.shapes_down hs (Server.setDpDown_rftable o s c d)]
  constructor
  · intro h r hr hon hvm
    obtain ⟨sh, he⟩ := hs r hr
    rw [← onDp_iff, he] at hon
    rw [he, RFShape.entry_vm] at hvm
    have hsh : sh ≠ .empty := by
      rintro rfl
      exact hne ⟨r, hr, he⟩
    exact h ⟨sh, ⟨r, hr, he⟩, (RFShape.afterDown_eq_empty hsh).mpr ⟨hon, hvm⟩⟩
  · rintro h ⟨sh, ⟨r, hr, he⟩, hempty⟩
    have hsh : sh ≠ .empty := by
      rintro rfl
      exact hne ⟨r, hr, he⟩
    obtain ⟨hon, hvm⟩ := (RFShape.afterDown_eq_empty hsh).mp hempty
    refine h r hr ?_ ?_
    · rwa [← onDp_iff, he]
    · rw [he, RFShape.entry_vm, hvm]

theorem RFISLShape.afterDown_some {c d : Nat} {sh : RFISLShape} :
    (sh.afterDown c d).near ≠ none ∨ (sh.afterDown c d).far ≠ none ↔
      ∃ a, sh.entry.Contains a ∧ ¬ (a.ctId = c ∧ a.dpId = d) := by
  simp only [ne_eq, Option.eq_none_iff_forall_ne_some, not_forall, not_not, RFISLShape.afterDown_near,
    RFISLShape.afterDown_far, RFISLEntry.Contains, RFISLShape.entry_near, RFISLShape.entry_far, or_and_right,
    exists_or]

theorem down_no_empty_isl (hi : IslShaped s.isltable) (c d : Nat) :
    (∀ sh ∈ (Server.setDpDown o s c d).isltable.shapes, sh.near ≠ none ∨ sh.far ≠ none) ↔
      ∀ r ∈ s.isltable.rows, ∃ a, r.val.Contains a ∧ ¬ (a.ctId = c ∧ a.dpId = d) := by
  rw [RFISLTable.shapes_down o s hi, Set.forall_mem_image]
  constructor
  · intro h r hr
    obtain ⟨sh, he⟩ := hi r hr
    rw [he]
    exact RFISLShape.afterDown_some.mp (h ⟨r, hr, he⟩)
  · rintro h sh ⟨r, hr, he⟩
    refine RFISLShape.afterDown_some.mpr ?_
    rw [← he]
    exact h r hr

theorem step_meaningful_iff (x : Order × Msg) (hs : RFShaped s.rftable ∧ IslShaped s.isltable)
    (hm : s.Meaningful) : (s.step cfg x).Meaningful ↔ LeavesNoEmptyRow s x := by
  obtain ⟨o, msg⟩ := x
  obtain ⟨hrf, hisl⟩ := (Server.meaningful_iff hs.1 hs.2).mp hm
  rw [Server.meaningful_iff (step_shaped hs.1 _) (step_islShaped hs.2 _)]
  by_cases hd : ∃ c d, msg = .datapathDown c d
  · obtain ⟨c, d, rfl⟩ := hd
    exact and_congr (down_no_empty_rf hs.1 hrf c d) (down_no_empty_isl hs.2 c d)
  · rw [not_exists] at hd
    have hd' : ∀ c d, msg ≠ .datapathDown c d := fun c d he => hd c ⟨d, he⟩
    have hno : LeavesNoEmptyRow s (o, msg) := by
      cases msg <;> first | trivial | exact absurd rfl (hd' _ _)
    simp only [hno, iff_true]
    exact ⟨(step_effect cfg o s hs.1 msg).no_empty hd' hrf, step_isl_no_empty hd' hs.2 hisl⟩

end Step

theorem init_meaningful : Server.init.Meaningful := by
  refine (Server.meaningful_iff init_shaped init_islShaped).mpr ⟨?_, ?_⟩
  · rintro ⟨r, hr, -⟩
    simp [Server.init, memoryTable] at hr
  · rintro sh ⟨r, hr, -⟩
    simp [Server.init, memoryTable] at hr

/-- All rows of a run are meaningful exactly if no datapath goes down at the wrong time. -/
theorem rows_meaningful_iff (cfg : Config) (h : History) :
    Always (Server.step cfg) Server.Meaningful Server.init h ↔
      Along (Server.step cfg) LeavesNoEmptyRow Server.init h :=
  always_iff_along (I := fun s : Server => RFShaped s.rftable ∧ IslShaped s.isltable)
    (fun _ x hs => ⟨step_shaped hs.1 x, step_islShaped hs.2 x⟩) (fun _ x hs hm => step_meaningful_iff x hs hm)
    ⟨init_shaped, init_islShaped⟩ init_meaningful h

/-- A port that has not met its VM goes down, and its row counts as associated. -/
theorem down_leaves_empty_row :
    let o := Order.insertion
    let h : History := [(o, .datapathPortRegister 0 5 3), (o, .datapathDown 0 5)]
    (∃ r ∈ (run (Server.step oneLine) Server.init h).rftable.rows,
      r.val.getStatus = .rfentryAssociated ∧ r.val.vm = none ∧ r.val.dp = none) ∧
    ¬ Always (Server.step oneLine) Server.Meaningful Server.init h := by
  intro o h
  have hrow : (⟨1001, {}⟩ : Row RFEntry) ∈ (run (Server.step oneLine) Server.init h).rftable.rows := by decide
  refine ⟨⟨_, hrow, rfl, rfl, rfl⟩, fun hm => ?_⟩
  exact (hm.2.2.rf_status _ hrow (Or.inl rfl)).1 rfl

end RouteFlow
