import RouteFlow.Effects
import RouteFlow.Lib.Run

/-!
# Ports find their peers

The handlers of registrations check first and write later, and every lookup takes any row that fits.
Still a line of the configuration whose two ends are there has a row that joins them.
-/

namespace RouteFlow

open Store Run

/-! ## Histories -/

/-- The messages that RFServer has processed, the oldest first, each with the row order it met. -/
abbrev History := List (Order × Msg)

/-- The VM port registered with this address. -/
def GaveMac (v : VmPort) (m : Mac) (h : History) : Prop := ∃ o, (o, Msg.portRegister v.vmId v.vmPort m) ∈ h

def VmRegistered (v : VmPort) (h : History) : Prop := ∃ m, GaveMac v m h

/-- The datapath port registered, and its datapath did not go down since. -/
def DpUp (d : DpPort) (h : History) : Prop :=
  Since (fun x : Order × Msg => x.2 = .datapathPortRegister d.ctId d.dpId d.dpPort)
    (fun x => x.2 = .datapathDown d.ctId d.dpId) h

theorem gaveMac_snoc (v : VmPort) (m : Mac) (h : History) (x : Order × Msg) :
    GaveMac v m (h ++ [x]) ↔ GaveMac v m h ∨ x.2 = .portRegister v.vmId v.vmPort m := by
  simp only [GaveMac, List.mem_append, List.mem_singleton, exists_or]
  apply or_congr_right
  constructor
  · rintro ⟨o, rfl⟩; rfl
  · intro hx; exact ⟨x.1, Prod.ext rfl hx.symm⟩

theorem GaveMac.snoc {v : VmPort} {m : Mac} {h : History} (hm : GaveMac v m h) (x : Order × Msg) :
    GaveMac v m (h ++ [x]) := (gaveMac_snoc v m h x).mpr (Or.inl hm)

/-! ## Configurations -/

namespace Config

variable (cfg : Config)

/-- No VM port is in two lines. -/
def DistinctVmPorts : Prop := (cfg.config.rows.map fun c => c.val.vm).Nodup

/-- No datapath port is in two lines. -/
def DistinctDpPorts : Prop := (cfg.config.rows.map fun c => c.val.dp).Nodup

/-- The two ends are those of a line of `RFConfig`. -/
def Joins (v : VmPort) (d : DpPort) : Prop := ∃ c ∈ cfg.config.rows, c.val.vm = v ∧ c.val.dp = d

/-- What the handlers of registrations rely on. -/
structure PlainPorts : Prop where
  vm_nodup : cfg.DistinctVmPorts
  dp_nodup : cfg.DistinctDpPorts
  not_rfvs : ∀ c ∈ cfg.config.rows, isRfvs c.val.dpId = false
  fp_disabled : cfg.fpEnabled = false

variable {cfg}

theorem DistinctVmPorts.eq {a b : Row RFConfigEntry} (h : cfg.DistinctVmPorts) (ha : a ∈ cfg.config.rows)
    (hb : b ∈ cfg.config.rows) (he : a.val.vm = b.val.vm) : a = b := List.inj_on_of_nodup_map h ha hb he

theorem DistinctDpPorts.eq {a b : Row RFConfigEntry} (h : cfg.DistinctDpPorts) (ha : a ∈ cfg.config.rows)
    (hb : b ∈ cfg.config.rows) (he : a.val.dp = b.val.dp) : a = b := List.inj_on_of_nodup_map h ha hb he

theorem DistinctVmPorts.joins_eq {v : VmPort} {d e : DpPort} (h : cfg.DistinctVmPorts)
    (hd : cfg.Joins v d) (he : cfg.Joins v e) : d = e := by
  obtain ⟨a, ha, hav, rfl⟩ := hd
  obtain ⟨b, hb, hbv, rfl⟩ := he
  rw [h.eq ha hb (hav.trans hbv.symm)]

theorem DistinctDpPorts.joins_eq {v w : VmPort} {d : DpPort} (h : cfg.DistinctDpPorts)
    (hv : cfg.Joins v d) (hw : cfg.Joins w d) : v = w := by
  obtain ⟨a, ha, rfl, had⟩ := hv
  obtain ⟨b, hb, rfl, hbd⟩ := hw
  rw [h.eq ha hb (had.trans hbd.symm)]

end Config

theorem configureDatapath_ok {cfg : Config} (hfp : cfg.fpEnabled = false) (o : Order) (tr : Translator) :
    ∃ rms, tr.configureDatapath cfg o = .ok rms := by
  unfold Translator.configureDatapath
  split <;>
    simp [Translator.defaultConfigureDatapath, Translator.defaultHandleControllerRouteMod,
      Translator.noviFlowConfigureDatapath, hfp, pure, Except.pure, bind, Except.bind]

/-- `config_dp` ends the registration: the datapath is a virtual switch, or its first flows cannot be
made. -/
def dpRefused (cfg : Config) (o : Order) (s : Server) (c d : Nat) : Prop :=
  isRfvs d = true ∨
    ((RFTable.isDpRegistered o s.rftable c d || RFISLTable.isDpRegistered o s.isltable c d) = true ∧
      s.routeModTranslator d = none ∧
      ∃ e, (Server.newTranslator cfg c d).configureDatapath cfg o = .error e)

theorem dpProceeds_iff (cfg : Config) (o : Order) (s : Server) (c d : Nat) :
    dpProceeds cfg o s c d ↔ ¬ dpRefused cfg o s c d := by
  unfold dpProceeds dpRefused Server.configDp
  split
  · rename_i hr
    simp [hr]
  · rename_i hr
    split
    · rename_i hreg
      split
      · rename_i tr htr
        simp [hr, htr]
      · rename_i htr
        dsimp only
        split
        · rename_i e he
          simp only [reduceCtorEq, false_iff, not_not]
          exact Or.inr ⟨hreg, htr, e, he⟩
        · rename_i rms he
          simp [hr, he]
    · rename_i hreg
      simp only [true_iff]
      rintro (h | ⟨h, -⟩)
      · exact hr h
      · exact hreg h

/-! ## The invariant -/

/-- What the table is like after the history `h`. The hard part is `apart`: an idle VM row and an idle
datapath row of one line never wait for each other. -/
structure Associating (cfg : Config) (h : History) (t : RFTable) : Prop where
  shaped : RFShaped t
  joined : ∀ sh ∈ t.shapes, ∀ v d, sh.vm = some v → sh.dp = some d → cfg.Joins v d
  apart : ∀ v d, cfg.Joins v d → ∀ m, RFShape.idleVm v m ∈ t.shapes → RFShape.idleDp d ∉ t.shapes
  mac : ∀ sh ∈ t.shapes, ∀ v m, sh.vm = some v → sh.eth = some m → GaveMac v m h
  vm_row : ∀ v, VmRegistered v h → ∃ sh ∈ t.shapes, sh.vm = some v
  dp_row : ∀ v d, cfg.Joins v d → DpUp d h → ∃ sh ∈ t.shapes, sh.dp = some d

section Step

variable {cfg : Config} {o : Order} {s : Server} {msg : Msg} {t' : RFTable}

theorem vmPeer_shape {t : RFTable} (hs : RFShaped t) {v p : Nat} {r : Row RFEntry}
    (h : vmPeer cfg o t v p = some r) :
    ∃ sh ∈ t.shapes, r.val = sh.entry ∧ ∃ d, sh.dp = some d ∧ cfg.Joins ⟨v, p⟩ d := by
  obtain ⟨hr, c, hc, hcv, hd⟩ := vmPeer_mem h
  obtain ⟨sh, hsh⟩ := hs r hr
  refine ⟨sh, ⟨r, hr, hsh⟩, hsh, c.val.dp, ?_, c, hc, hcv, rfl⟩
  rw [← RFShape.entry_dp, ← hsh, hd]

theorem dpPeer_shape {t : RFTable} (hs : RFShaped t) {c d p : Nat} {r : Row RFEntry}
    (h : dpPeer cfg o t c d p = some r) :
    ∃ sh ∈ t.shapes, r.val = sh.entry ∧ ∃ v, sh.vm = some v ∧ cfg.Joins v ⟨c, d, p⟩ := by
  obtain ⟨hr, l, hl, hld, hv⟩ := dpPeer_mem h
  obtain ⟨sh, hsh⟩ := hs r hr
  refine ⟨sh, ⟨r, hr, hsh⟩, hsh, l.val.vm, ?_, l, hl, rfl, hld⟩
  rw [← RFShape.entry_vm, ← hsh, hv]

theorem vmPeer_none_shape {t : RFTable} (hv : cfg.DistinctVmPorts) {v p : Nat}
    (h : vmPeer cfg o t v p = none) {d : DpPort} (hj : cfg.Joins ⟨v, p⟩ d) :
    ∀ sh ∈ t.shapes, sh.dp ≠ some d := by
  rintro sh ⟨r, hr, hsh⟩ hd
  rcases vmPeer_none h with hno | ⟨c, hc, hcv, hno⟩
  · obtain ⟨c, hc, hcv, -⟩ := hj
    exact hno c hc hcv
  · rw [← hv.joins_eq ⟨c, hc, hcv, rfl⟩ hj, ← RFShape.entry_dp, ← hsh] at hd
    exact hno r hr hd

theorem dpPeer_none_shape {t : RFTable} (hd : cfg.DistinctDpPorts) {c d p : Nat}
    (h : dpPeer cfg o t c d p = none) {v : VmPort} (hj : cfg.Joins v ⟨c, d, p⟩) :
    ∀ sh ∈ t.shapes, sh.vm ≠ some v := by
  rintro sh ⟨r, hr, hsh⟩ hv
  rcases dpPeer_none h with hno | ⟨l, hl, hld, hno⟩
  · obtain ⟨l, hl, -, hld⟩ := hj
    exact hno l hl hld
  · rw [← hd.joins_eq ⟨l, hl, rfl, hld⟩ hj, ← RFShape.entry_vm, ← hsh] at hv
    exact hno r hr hv

theorem RfEffect.joined (h : RfEffect cfg o s msg t') (hs : RFShaped s.rftable)
    (hj : ∀ sh ∈ s.rftable.shapes, ∀ v d, sh.vm = some v → sh.dp = some d → cfg.Joins v d) :
    ∀ sh ∈ t'.shapes, ∀ v d, sh.vm = some v → sh.dp = some d → cfg.Joins v d := by
  intro sh hsh v d hv hd
  cases h with
  | vmIdle _ =>
    rcases (Table.mem_view_add RFShape.entry_injective).mp hsh with rfl | hsh
    · simp [RFShape.dp] at hd
    · exact hj sh hsh v d hv hd
  | vmJoin hp hr =>
    rcases Table.mem_view_of_put RFShape.entry_injective (vmPeer_mem hp).1 hsh with rfl | hsh
    · obtain ⟨sh', _, hr', d', hd', hjoin⟩ := vmPeer_shape hs hp
      obtain rfl := RFShape.entry_injective (hr.symm.trans hr')
      simp only [RFShape.dp, RFShape.vm, Option.some.injEq] at hd hd' hv
      rw [← hv, ← hd, hd']
      exact hjoin
    · exact hj sh hsh v d hv hd
  | dpIdle _ _ _ =>
    rcases (Table.mem_view_add RFShape.entry_injective).mp hsh with rfl | hsh
    · simp [RFShape.vm] at hv
    · exact hj sh hsh v d hv hd
  | dpJoin _ hp hr =>
    rcases Table.mem_view_of_put RFShape.entry_injective (dpPeer_mem hp).1 hsh with rfl | hsh
    · obtain ⟨sh', _, hr', v', hv', hjoin⟩ := dpPeer_shape hs hp
      obtain rfl := RFShape.entry_injective (hr.symm.trans hr')
      simp only [RFShape.dp, RFShape.vm, Option.some.injEq] at hd hv hv'
      rw [← hd, ← hv, hv']
      exact hjoin
    · exact hj sh hsh v d hv hd
  | down ht =>
    rw [RFTable.shapes_down hs ht] at hsh
    obtain ⟨sh, hsh, rfl⟩ := hsh
    rw [RFShape.afterDown_vm] at hv
    exact hj sh hsh v d hv (RFShape.afterDown_dp.mp hd).1
  | map he hr =>
    have hq := (Table.first_some he).1
    rcases Table.mem_view_of_put RFShape.entry_injective hq hsh with rfl | hsh
    · exact hj _ ⟨_, hq, hr⟩ v d hv hd
    · exact hj sh hsh v d hv hd
  | vmKeep | dpStop | dpIsl | dpKeep | mapKeep | routeMod | reply => exact hj sh hsh v d hv hd

theorem RfEffect.mac {h : History} (he : RfEffect cfg o s msg t') (hs : RFShaped s.rftable)
    (hm : ∀ sh ∈ s.rftable.shapes, ∀ v m, sh.vm = some v → sh.eth = some m → GaveMac v m h) :
    ∀ sh ∈ t'.shapes, ∀ v m, sh.vm = some v → sh.eth = some m → GaveMac v m (h ++ [(o, msg)]) := by
  intro sh hsh v m hv heth
  have old : sh ∈ s.rftable.shapes → GaveMac v m (h ++ [(o, msg)]) := fun hsh =>
    (hm sh hsh v m hv heth).snoc _
  cases he with
  | vmIdle _ =>
    rcases (Table.mem_view_add RFShape.entry_injective).mp hsh with rfl | hsh
    · simp only [RFShape.vm, RFShape.eth, Option.some.injEq] at hv heth
      rw [gaveMac_snoc, ← hv, ← heth]
      exact Or.inr rfl
    · exact old hsh
  | vmJoin hp _ =>
    rcases Table.mem_view_of_put RFShape.entry_injective (vmPeer_mem hp).1 hsh with rfl | hsh
    · simp only [RFShape.vm, RFShape.eth, Option.some.injEq] at hv heth
      rw [gaveMac_snoc, ← hv, ← heth]
      exact Or.inr rfl
    · exact old hsh
  | dpIdle _ _ _ =>
    rcases (Table.mem_view_add RFShape.entry_injective).mp hsh with rfl | hsh
    · simp [RFShape.vm] at hv
    · exact old hsh
  | dpJoin _ hp hr =>
    rcases Table.mem_view_of_put RFShape.entry_injective (dpPeer_mem hp).1 hsh with rfl | hsh
    · exact (hm _ ⟨_, (dpPeer_mem hp).1, hr⟩ v m hv heth).snoc _
    · exact old hsh
  | down ht =>
    rw [RFTable.shapes_down hs ht] at hsh
    obtain ⟨sh, hsh, rfl⟩ := hsh
    rw [RFShape.afterDown_vm] at hv
    rw [RFShape.afterDown_eth] at heth
    exact (hm sh hsh v m hv heth).snoc _
  | map hg hr =>
    have hq := (Table.first_some hg).1
    rcases Table.mem_view_of_put RFShape.entry_injective hq hsh with rfl | hsh
    · exact (hm _ ⟨_, hq, hr⟩ v m hv heth).snoc _
    · exact old hsh
  | vmKeep | dpStop | dpIsl | dpKeep | mapKeep | routeMod | reply => exact old hsh

theorem RfEffect.vm_kept (h : RfEffect cfg o s msg t') (hs : RFShaped s.rftable) {sh : RFShape}
    (hsh : sh ∈ s.rftable.shapes) : ∃ sh' ∈ t'.shapes, ∀ v, sh.vm = some v → sh'.vm = some v := by
  cases h with
  | vmIdle _ | dpIdle _ _ _ =>
    exact ⟨sh, (Table.mem_view_add RFShape.entry_injective).mpr (Or.inr hsh), fun v hv => hv⟩
  | vmJoin hp hr =>
    have hq := (vmPeer_mem hp).1
    rcases Table.mem_view_put RFShape.entry_injective hq hr hsh with rfl | hsh
    · exact ⟨_, Table.mem_view_put_self hq _, by simp [RFShape.vm]⟩
    · exact ⟨sh, hsh, fun v hv => hv⟩
  | dpJoin _ hp hr =>
    have hq := (dpPeer_mem hp).1
    rcases Table.mem_view_put RFShape.entry_injective hq hr hsh with rfl | hsh
    · exact ⟨_, Table.mem_view_put_self hq _, fun v hv => hv⟩
    · exact ⟨sh, hsh, fun v hv => hv⟩
  | down ht =>
    rw [RFTable.shapes_down hs ht]
    exact ⟨_, ⟨sh, hsh, rfl⟩, fun v hv => by rw [RFShape.afterDown_vm]; exact hv⟩
  | map he hr =>
    have hq := (Table.first_some he).1
    rcases Table.mem_view_put RFShape.entry_injective hq hr hsh with rfl | hsh
    · exact ⟨_, Table.mem_view_put_self hq _, fun v hv => hv⟩
    · exact ⟨sh, hsh, fun v hv => hv⟩
  | vmKeep | dpStop | dpIsl | dpKeep | mapKeep | routeMod | reply => exact ⟨sh, hsh, fun v hv => hv⟩

theorem RfEffect.dp_kept (h : RfEffect cfg o s msg t') (hs : RFShaped s.rftable) {sh : RFShape} {d : DpPort}
    (hsh : sh ∈ s.rftable.shapes) (hd : sh.dp = some d) (hm : msg ≠ .datapathDown d.ctId d.dpId) :
    ∃ sh' ∈ t'.shapes, sh'.dp = some d := by
  cases h with
  | vmIdle _ | dpIdle _ _ _ =>
    exact ⟨sh, (Table.mem_view_add RFShape.entry_injective).mpr (Or.inr hsh), hd⟩
  | vmJoin hp hr =>
    have hq := (vmPeer_mem hp).1
    rcases Table.mem_view_put RFShape.entry_injective hq hr hsh with rfl | hsh
    · exact ⟨_, Table.mem_view_put_self hq _, hd⟩
    · exact ⟨sh, hsh, hd⟩
  | dpJoin _ hp hr =>
    have hq := (dpPeer_mem hp).1
    rcases Table.mem_view_put RFShape.entry_injective hq hr hsh with rfl | hsh
    · simp [RFShape.dp] at hd
    · exact ⟨sh, hsh, hd⟩
  | down ht =>
    rw [RFTable.shapes_down hs ht]
    refine ⟨_, ⟨sh, hsh, rfl⟩, RFShape.afterDown_dp.mpr ⟨hd, ?_⟩⟩
    rintro ⟨rfl, rfl⟩
    exact hm rfl
  | map he hr =>
    have hq := (Table.first_some he).1
    rcases Table.mem_view_put RFShape.entry_injective hq hr hsh with rfl | hsh
    · exact ⟨_, Table.mem_view_put_self hq _, hd⟩
    · exact ⟨sh, hsh, hd⟩
  | vmKeep | dpStop | dpIsl | dpKeep | mapKeep | routeMod | reply => exact ⟨sh, hsh, hd⟩

theorem RfEffect.vm_new {v p : Nat} {m : Mac} (h : RfEffect cfg o s (.portRegister v p m) t')
    (hs : RFShaped s.rftable) (hd : cfg.DistinctDpPorts)
    (hj : ∀ sh ∈ s.rftable.shapes, ∀ v d, sh.vm = some v → sh.dp = some d → cfg.Joins v d) :
    ∃ sh ∈ t'.shapes, sh.vm = some ⟨v, p⟩ := by
  cases h with
  | vmIdle _ => exact ⟨_, (Table.mem_view_add RFShape.entry_injective).mpr (Or.inl rfl), rfl⟩
  | vmJoin hp hr => exact ⟨_, Table.mem_view_put_self (vmPeer_mem hp).1 _, rfl⟩
  | vmKeep hp hst =>
    obtain ⟨sh, hsh, hr, d, hdp, hjoin⟩ := vmPeer_shape hs hp
    refine ⟨sh, hsh, ?_⟩
    rw [hr, RFShape.entry_status] at hst
    -- The datapath port is taken, and only by a VM port of its line.
    obtain ⟨w, hw⟩ : ∃ w, sh.vm = some w := by
      cases sh <;> simp_all [RFShape.vm, RFShape.dp, RFShape.status]
    rw [hw, hd.joins_eq (hj sh hsh w d hw hdp) hjoin]

theorem RfEffect.dp_new {v : VmPort} {d : DpPort}
    (h : RfEffect cfg o s (.datapathPortRegister d.ctId d.dpId d.dpPort) t')
    (hs : RFShaped s.rftable) (hv : cfg.DistinctVmPorts) (hp : dpProceeds cfg o s d.ctId d.dpId)
    (hj : ∀ sh ∈ s.rftable.shapes, ∀ v d, sh.vm = some v → sh.dp = some d → cfg.Joins v d)
    (hjoin : cfg.Joins v d) : ∃ sh ∈ t'.shapes, sh.dp = some d := by
  cases h with
  | dpStop hno => exact absurd hp hno
  | dpIsl _ hisl =>
    obtain ⟨c, hc, -, hcd⟩ := hjoin
    exact absurd hcd (RFConfig.getConfigForDpPort_none.mp hisl.1 c hc)
  | dpIdle _ _ _ => exact ⟨_, (Table.mem_view_add RFShape.entry_injective).mpr (Or.inl rfl), rfl⟩
  | dpJoin _ hpeer hr => exact ⟨_, Table.mem_view_put_self (dpPeer_mem hpeer).1 _, rfl⟩
  | dpKeep _ hpeer hst =>
    obtain ⟨sh, hsh, hr, w, hw, hwj⟩ := dpPeer_shape hs hpeer
    refine ⟨sh, hsh, ?_⟩
    rw [hr, RFShape.entry_status] at hst
    obtain ⟨e, he⟩ : ∃ e, sh.dp = some e := by
      cases sh <;> simp_all [RFShape.vm, RFShape.dp, RFShape.status]
    rw [he, hv.joins_eq (hj sh hsh w e hw he) hwj]

theorem RfEffect.apart (h : RfEffect cfg o s msg t') (hs : RFShaped s.rftable) (hv : cfg.DistinctVmPorts)
    (hd : cfg.DistinctDpPorts)
    (hj : ∀ sh ∈ s.rftable.shapes, ∀ v d, sh.vm = some v → sh.dp = some d → cfg.Joins v d)
    (ha : ∀ v d, cfg.Joins v d → ∀ m, RFShape.idleVm v m ∈ s.rftable.shapes →
      RFShape.idleDp d ∉ s.rftable.shapes) :
    ∀ v d, cfg.Joins v d → ∀ m, RFShape.idleVm v m ∈ t'.shapes → RFShape.idleDp d ∉ t'.shapes := by
  intro v d hjoin m hvm hdp
  cases h with
  | vmIdle hp =>
    rw [RFTable.shapes, Table.mem_view_add RFShape.entry_injective] at hvm hdp
    rcases hdp with hdp | hdp
    · simp at hdp
    rcases hvm with hvm | hvm
    · simp only [RFShape.idleVm.injEq] at hvm
      obtain ⟨rfl, -⟩ := hvm
      exact vmPeer_none_shape hv hp hjoin _ hdp rfl
    · exact ha v d hjoin m hvm hdp
  | dpIdle _ _ hp =>
    rw [RFTable.shapes, Table.mem_view_add RFShape.entry_injective] at hvm hdp
    rcases hvm with hvm | hvm
    · simp at hvm
    rcases hdp with hdp | hdp
    · simp only [RFShape.idleDp.injEq] at hdp
      subst hdp
      exact dpPeer_none_shape hd hp hjoin _ hvm rfl
    · exact ha v d hjoin m hvm hdp
  | vmJoin hp _ =>
    have hq := (vmPeer_mem hp).1
    exact ha v d hjoin m ((Table.mem_view_of_put RFShape.entry_injective hq hvm).resolve_left (by simp))
      ((Table.mem_view_of_put RFShape.entry_injective hq hdp).resolve_left (by simp))
  | dpJoin _ hp _ =>
    have hq := (dpPeer_mem hp).1
    exact ha v d hjoin m ((Table.mem_view_of_put RFShape.entry_injective hq hvm).resolve_left (by simp))
      ((Table.mem_view_of_put RFShape.entry_injective hq hdp).resolve_left (by simp))
  | map he _ =>
    have hq := (Table.first_some he).1
    exact ha v d hjoin m ((Table.mem_view_of_put RFShape.entry_injective hq hvm).resolve_left (by simp))
      ((Table.mem_view_of_put RFShape.entry_injective hq hdp).resolve_left (by simp))
  | @down c k _ ht =>
    rw [RFTable.shapes_down hs ht] at hvm hdp
    obtain ⟨shv, hshv, hvm⟩ := hvm
    obtain ⟨shd, hshd, hdp⟩ := hdp
    -- The datapath row was there before, since a row that goes down has no datapath end.
    have hdp' : shd.dp = some d ∧ ¬ (d.ctId = c ∧ d.dpId = k) :=
      RFShape.afterDown_dp.mp (by rw [hdp]; rfl)
    have hshd' : shd = .idleDp d := by
      have := RFShape.afterDown_vm c k shd
      rw [hdp] at this
      cases shd <;> simp_all [RFShape.vm, RFShape.dp]
    have hvm' : shv.vm = some v := by rw [← RFShape.afterDown_vm c k, hvm]; rfl
    cases hdv : shv.dp with
    | none =>
      have : shv = .idleVm v m := by
        have := RFShape.afterDown_eth c k shv
        rw [hvm] at this
        cases shv <;> simp_all [RFShape.vm, RFShape.dp, RFShape.eth]
      exact ha v d hjoin m (this ▸ hshv) (hshd' ▸ hshd)
    | some e =>
      -- A row that has just become idle was joined to this very port, and so the port went down too.
      obtain rfl := hv.joins_eq (hj shv hshv v e hvm' hdv) hjoin
      have : (shv.afterDown c k).dp = some e := RFShape.afterDown_dp.mpr ⟨hdv, hdp'.2⟩
      rw [hvm] at this
      simp [RFShape.dp] at this
  | vmKeep | dpStop | dpIsl | dpKeep | mapKeep | routeMod | reply => exact ha v d hjoin m hvm hdp

end Step

/-! ## Runs -/

theorem Associating.init (cfg : Config) : Associating cfg [] Server.init.rftable where
  shaped := init_shaped
  joined := by rintro sh ⟨r, hr, -⟩; simp [Server.init, memoryTable] at hr
  apart := by rintro v d _ m ⟨r, hr, -⟩; simp [Server.init, memoryTable] at hr
  mac := by rintro sh ⟨r, hr, -⟩; simp [Server.init, memoryTable] at hr
  vm_row := by rintro v ⟨m, o, h⟩; simp at h
  dp_row := by intro v d _ h; simp [DpUp] at h

theorem Associating.step {cfg : Config} (hc : cfg.PlainPorts) {h : History} {s : Server} (x : Order × Msg)
    (hi : Associating cfg h s.rftable) : Associating cfg (h ++ [x]) (s.step cfg x).rftable := by
  obtain ⟨o, msg⟩ := x
  have he := step_effect cfg o s hi.shaped msg
  refine ⟨he.shaped hi.shaped, he.joined hi.shaped hi.joined,
    he.apart hi.shaped hc.vm_nodup hc.dp_nodup hi.joined hi.apart, he.mac hi.shaped hi.mac, ?_, ?_⟩
  · rintro v ⟨m, hm⟩
    rcases (gaveMac_snoc v m h _).mp hm with hm | rfl
    · obtain ⟨sh, hsh, hv⟩ := hi.vm_row v ⟨m, hm⟩
      obtain ⟨sh', hsh', hkept⟩ := he.vm_kept hi.shaped hsh
      exact ⟨sh', hsh', hkept v hv⟩
    · exact he.vm_new hi.shaped hc.dp_nodup hi.joined
  · intro v d hjoin hup
    rcases (since_snoc h _).mp hup with rfl | ⟨hup, hno⟩
    · refine he.dp_new hi.shaped hc.vm_nodup ?_ hi.joined hjoin
      obtain ⟨c, hcm, -, rfl⟩ := hjoin
      rw [dpProceeds_iff]
      rintro (hr | ⟨-, -, e, hf⟩)
      · exact absurd hr (by rw [show c.val.dp.dpId = c.val.dpId from rfl, hc.not_rfvs c hcm]; simp)
      · obtain ⟨rms, hok⟩ := configureDatapath_ok hc.fp_disabled o
          (Server.newTranslator cfg c.val.dp.ctId c.val.dp.dpId)
        rw [hok] at hf
        cases hf
    · obtain ⟨sh, hsh, hd⟩ := hi.dp_row v d hjoin hup
      exact he.dp_kept hi.shaped hsh hd hno

theorem run_associating {cfg : Config} (hc : cfg.PlainPorts) (h : History) :
    Associating cfg h (run (Server.step cfg) Server.init h).rftable :=
  history_invariant (I := fun h (s : Server) => Associating cfg h s.rftable) (Associating.init cfg)
    (fun _ _ x _ hi => hi.step hc x) h (along_true _ _ h)

theorem Associating.line_joined {cfg : Config} {h : History} {t : RFTable} (hi : Associating cfg h t)
    (hv : cfg.DistinctVmPorts) (hd : cfg.DistinctDpPorts) {v : VmPort} {d : DpPort} (hj : cfg.Joins v d)
    (hvm : ∃ sh ∈ t.shapes, sh.vm = some v) (hdp : ∃ sh ∈ t.shapes, sh.dp = some d) :
    ∃ sh ∈ t.shapes, sh.vm = some v ∧ sh.dp = some d := by
  obtain ⟨a, ha, hav⟩ := hvm
  obtain ⟨b, hb, hbd⟩ := hdp
  cases had : a.dp with
  | some e => exact ⟨a, ha, hav, by rw [had, hv.joins_eq (hi.joined a ha v e hav had) hj]⟩
  | none =>
    cases hbv : b.vm with
    | some w => exact ⟨b, hb, by rw [hbv, hd.joins_eq (hi.joined b hb w d hbv hbd) hj], hbd⟩
    | none =>
      obtain ⟨m, rfl⟩ : ∃ m, a = .idleVm v m := by cases a <;> simp_all [RFShape.vm, RFShape.dp]
      obtain rfl : b = .idleDp d := by cases b <;> simp_all [RFShape.vm, RFShape.dp]
      exact absurd hb (hi.apart v d hj m ha)

/-- Rows join the two ends of a line, under an address that the VM port gave. A line whose two ends
are there has such a row. -/
theorem lines_associated (cfg : Config) (hc : cfg.PlainPorts) (h : History) :
    let t := (run (Server.step cfg) Server.init h).rftable
    (∀ r ∈ t.rows, r.val.vmId.isSome → r.val.dpId.isSome → ∃ c ∈ cfg.config.rows,
      r.val.vm = some c.val.vm ∧ r.val.dp = some c.val.dp ∧ ∃ m, r.val.ethAddr = some m ∧
        GaveMac c.val.vm m h) ∧
    (∀ c ∈ cfg.config.rows, VmRegistered c.val.vm h → DpUp c.val.dp h → ∃ r ∈ t.rows,
      r.val.vm = some c.val.vm ∧ r.val.dp = some c.val.dp ∧
      (r.val.getStatus = .rfentryAssociated ∨ r.val.getStatus = .rfentryActive)) := by
  intro t
  have hi : Associating cfg h t := run_associating hc h
  constructor
  · intro r hr hv hd
    obtain ⟨sh, hsh⟩ := hi.shaped r hr
    have hmem : sh ∈ t.shapes := ⟨r, hr, hsh⟩
    rw [hsh] at hv hd
    obtain ⟨v, d, m, hvm, hdp, heth⟩ : ∃ v d m, sh.vm = some v ∧ sh.dp = some d ∧ sh.eth = some m := by
      cases sh <;> simp_all [RFShape.entry, RFShape.vm, RFShape.dp, RFShape.eth]
    obtain ⟨c, hcm, rfl, rfl⟩ := hi.joined sh hmem v d hvm hdp
    refine ⟨c, hcm, ?_, ?_, m, ?_, hi.mac sh hmem _ m hvm heth⟩
    · rw [hsh, RFShape.entry_vm, hvm]
    · rw [hsh, RFShape.entry_dp, hdp]
    · rw [hsh, RFShape.entry_eth, heth]
  · intro c hcm hv hd
    have hj : cfg.Joins c.val.vm c.val.dp := ⟨c, hcm, rfl, rfl⟩
    obtain ⟨sh, ⟨r, hr, hsh⟩, hvm, hdp⟩ := hi.line_joined hc.vm_nodup hc.dp_nodup hj
      (hi.vm_row _ hv) (hi.dp_row _ _ hj hd)
    refine ⟨r, hr, ?_, ?_, ?_⟩
    · rw [hsh, RFShape.entry_vm, hvm]
    · rw [hsh, RFShape.entry_dp, hdp]
    · rw [hsh, RFShape.entry_status]
      cases sh <;> simp_all [RFShape.vm, RFShape.dp, RFShape.status]

/-- VM 1 port 1 belongs to port 3 of datapath 5, of controller 0. -/
def oneLine : Config where
  config := (memoryTable RFConfigEntry).add ⟨1, 1, 0, 5, 3, none⟩
  islconf := memoryTable RFISLConfEntry
  fpconf := memoryTable RFFPConfEntry
  multitabledps := []
  satellitedps := []

theorem oneLine_plainPorts : oneLine.PlainPorts where
  vm_nodup := by simp [Config.DistinctVmPorts, oneLine, memoryTable, Table.add, Table.empty]
  dp_nodup := by simp [Config.DistinctDpPorts, oneLine, memoryTable, Table.add, Table.empty]
  not_rfvs := by simp [oneLine, memoryTable, isRfvs, RFVS_PREFIX]
  fp_disabled := rfl

/-- The datapath comes up, goes down and comes up again, and the VM registers in between. -/
theorem lines_associated_oneLine :
    let o := Order.insertion
    let h : History := [(o, .datapathPortRegister 0 5 3), (o, .datapathDown 0 5), (o, .portRegister 1 1 7),
      (o, .datapathPortRegister 0 5 3)]
    ∃ r ∈ (run (Server.step oneLine) Server.init h).rftable.rows, r.val.vm = some ⟨1, 1⟩ ∧
      r.val.dp = some ⟨0, 5, 3⟩ ∧
      (r.val.getStatus = .rfentryAssociated ∨ r.val.getStatus = .rfentryActive) := by
  intro o h
  refine (lines_associated oneLine oneLine_plainPorts h).2 ⟨1001, ⟨1, 1, 0, 5, 3, none⟩⟩ ?_ ?_ ?_
  · simp [oneLine, memoryTable, Table.empty]
  · exact ⟨7, o, by simp [h, RFConfigEntry.vm]⟩
  · exact ⟨h.take 3, (o, .datapathPortRegister 0 5 3), [], rfl, rfl, by simp⟩

/-! ## Each port has one row -/

/-- The lookups by port have at most one row to choose from. -/
structure UniquePorts (t : RFTable) : Prop where
  vm : t.UniqueBy RFEntry.vm
  dp : t.UniqueBy RFEntry.dp

/-- The message does not make a second row for its port: the port has none yet, or the handler leaves
the table alone. -/
def KeepsPortsUnique (cfg : Config) (s : Server) : Order × Msg → Prop
  | (o, .portRegister v p _) =>
    (∀ r ∈ s.rftable.rows, r.val.vm ≠ some ⟨v, p⟩) ∨
      ∃ r, vmPeer cfg o s.rftable v p = some r ∧ r.val.getStatus ≠ .rfentryIdleDpPort
  | (o, .datapathPortRegister c d p) =>
    (∀ r ∈ s.rftable.rows, r.val.dp ≠ some ⟨c, d, p⟩) ∨ dpRefused cfg o s c d ∨
    isIslPort cfg o c d p ∨
      ∃ r, dpPeer cfg o s.rftable c d p = some r ∧ r.val.getStatus ≠ .rfentryIdleVmPort
  | _ => True

theorem uniquePorts_add {t : RFTable} (hu : UniquePorts t) (sh : RFShape) :
    UniquePorts (t.add sh.entry) ↔
      (∀ v, sh.vm = some v → ∀ r ∈ t.rows, r.val.vm ≠ some v) ∧
      (∀ d, sh.dp = some d → ∀ r ∈ t.rows, r.val.dp ≠ some d) := by
  rw [← RFShape.entry_vm, ← RFShape.entry_dp, ← Table.uniqueBy_add hu.vm, ← Table.uniqueBy_add hu.dp]
  exact ⟨fun h => ⟨h.vm, h.dp⟩, fun h => ⟨h.1, h.2⟩⟩

theorem uniquePorts_put {t : RFTable} (hu : UniquePorts t) {q : Row RFEntry} (hq : q ∈ t.rows)
    (sh : RFShape) :
    UniquePorts (t.put q.id sh.entry) ↔
      (∀ v, sh.vm = some v → ∀ r ∈ t.rows, r ≠ q → r.val.vm ≠ some v) ∧
      (∀ d, sh.dp = some d → ∀ r ∈ t.rows, r ≠ q → r.val.dp ≠ some d) := by
  rw [← RFShape.entry_vm, ← RFShape.entry_dp, ← Table.uniqueBy_put hu.vm hq, ← Table.uniqueBy_put hu.dp hq]
  exact ⟨fun h => ⟨h.vm, h.dp⟩, fun h => ⟨h.1, h.2⟩⟩

theorem UniquePorts.others {t : RFTable} (hu : UniquePorts t) {q : Row RFEntry} (hq : q ∈ t.rows) :
    (∀ v, q.val.vm = some v → ∀ r ∈ t.rows, r ≠ q → r.val.vm ≠ some v) ∧
    (∀ d, q.val.dp = some d → ∀ r ∈ t.rows, r ≠ q → r.val.dp ≠ some d) :=
  ⟨fun v hv r hr hne h => hne (hu.vm r hr q hq v h hv), fun d hd r hr hne h => hne (hu.dp r hr q hq d h hd)⟩

theorem UniquePorts.down {t t' : RFTable} (hu : UniquePorts t) (hs : RFShaped t) {c d : Nat}
    (ht : t'.rows = t.rows.map (Table.changeWhere (Server.onDp c d) fun e => e.makeIdle .rfentryIdleVmPort)) :
    UniquePorts t' := by
  have after : ∀ r ∈ t.rows, ∃ sh : RFShape, r.val = sh.entry ∧
      (Table.changeWhere (Server.onDp c d) (fun e => e.makeIdle .rfentryIdleVmPort) r).val =
        (sh.afterDown c d).entry := by
    intro r hr
    obtain ⟨sh, hsh⟩ := hs r hr
    refine ⟨sh, hsh, ?_⟩
    rw [show r = ⟨r.id, sh.entry⟩ by rw [← hsh], changeWhere_entry]
    rfl
  constructor
  · refine hu.vm.of_map ht fun r hr v hv => ?_
    obtain ⟨sh, hsh, hafter⟩ := after r hr
    rw [hafter, RFShape.entry_vm, RFShape.afterDown_vm] at hv
    rw [hsh, RFShape.entry_vm, hv]
  · refine hu.dp.of_map ht fun r hr k hk => ?_
    obtain ⟨sh, hsh, hafter⟩ := after r hr
    rw [hafter, RFShape.entry_dp, RFShape.afterDown_dp] at hk
    rw [hsh, RFShape.entry_dp, hk.1]

theorem RfEffect.uniquePorts_iff {cfg : Config} {o : Order} {s : Server} {msg : Msg} {t' : RFTable}
    (h : RfEffect cfg o s msg t') (hs : RFShaped s.rftable) (hu : UniquePorts s.rftable) :
    UniquePorts t' ↔ KeepsPortsUnique cfg s (o, msg) := by
  cases h with
  | vmIdle hp => simp [uniquePorts_add hu, KeepsPortsUnique, RFShape.vm, RFShape.dp, hp]
  | @vmJoin v p m r d hp hr =>
    have hq := (vmPeer_mem hp).1
    have hvm : r.val.vm = none := by rw [hr, RFShape.entry_vm]; rfl
    have hdp : r.val.dp = some d := by rw [hr, RFShape.entry_dp]; rfl
    have hst : r.val.getStatus = .rfentryIdleDpPort := by rw [hr, RFShape.entry_status]; rfl
    have hothers := (hu.others hq).2 d hdp
    simp only [uniquePorts_put hu hq, KeepsPortsUnique, RFShape.vm, RFShape.dp, Option.some.injEq,
      forall_eq', hp, exists_eq_left', hst, ne_eq, not_true_eq_false, or_false]
    constructor
    · intro hnew x hx hxv
      by_cases he : x = r
      · rw [he, hvm] at hxv; cases hxv
      · exact hnew.1 x hx he hxv
    · intro hnew
      exact ⟨fun x hx _ => hnew x hx, hothers⟩
  | vmKeep hp hst => simp [hu, KeepsPortsUnique, hp, hst]
  | dpStop hno =>
    rw [dpProceeds_iff, not_not] at hno
    simp [hu, KeepsPortsUnique, hno]
  | dpIsl _ hisl => simp [hu, KeepsPortsUnique, hisl]
  | dpIdle hpr hisl hp =>
    rw [dpProceeds_iff] at hpr
    simp [uniquePorts_add hu, KeepsPortsUnique, RFShape.vm, RFShape.dp, hp, hisl, hpr]
  | @dpJoin c k p r v m hpr hp hr =>
    have hq := (dpPeer_mem hp).1
    have hvm : r.val.vm = some v := by rw [hr, RFShape.entry_vm]; rfl
    have hdp : r.val.dp = none := by rw [hr, RFShape.entry_dp]; rfl
    have hst : r.val.getStatus = .rfentryIdleVmPort := by rw [hr, RFShape.entry_status]; rfl
    have hisl : ¬ isIslPort cfg o c k p := by
      rintro ⟨hno, -⟩
      simp [dpPeer, hno] at hp
    have hothers := (hu.others hq).1 v hvm
    rw [dpProceeds_iff] at hpr
    simp only [uniquePorts_put hu hq, KeepsPortsUnique, RFShape.vm, RFShape.dp, Option.some.injEq,
      forall_eq', hp, exists_eq_left', hst, ne_eq, not_true_eq_false, or_false, hpr, hisl]
    constructor
    · intro hnew x hx hxd
      by_cases he : x = r
      · rw [he, hdp] at hxd; cases hxd
      · exact hnew.2 x hx he hxd
    · intro hnew
      exact ⟨hothers, fun x hx _ => hnew x hx⟩
  | dpKeep _ hp hst => simp [hu, KeepsPortsUnique, hp, hst]
  | down ht => simp [hu.down hs ht, KeepsPortsUnique]
  | @map v p vs vp r m d he hr =>
    have hq := (Table.first_some he).1
    have hothers := hu.others hq
    rw [hr, RFShape.entry_vm, RFShape.entry_dp] at hothers
    simp only [uniquePorts_put hu hq, KeepsPortsUnique, iff_true]
    exact hothers
  | mapKeep _ | routeMod | reply => simp [hu, KeepsPortsUnique]

/-- The table has one row for each port throughout a run exactly if each message of the run meets the
condition when it arrives. -/
theorem ports_unique_iff (cfg : Config) (h : History) :
    Always (Server.step cfg) (fun s => UniquePorts s.rftable) Server.init h ↔
      Along (Server.step cfg) (KeepsPortsUnique cfg) Server.init h := by
  refine always_iff_along (I := fun s => RFShaped s.rftable) (fun s x hs => step_shaped hs x)
    ?_ init_shaped ?_ h
  · intro s x hs hu
    exact (step_effect cfg x.1 s hs x.2).uniquePorts_iff hs hu
  · constructor <;> intro r hr <;> simp [Server.init, memoryTable] at hr

/-- A VM port that registers twice before its datapath is there gets a second row. -/
theorem ports_not_unique :
    let o := Order.insertion
    let h : History := [(o, .portRegister 1 1 7), (o, .portRegister 1 1 7)]
    ¬ UniquePorts (run (Server.step oneLine) Server.init h).rftable := by
  intro o h hu
  have := hu.vm ⟨1001, (RFShape.idleVm ⟨1, 1⟩ 7).entry⟩ (by decide)
    ⟨1002, (RFShape.idleVm ⟨1, 1⟩ 7).entry⟩
    (by decide) ⟨1, 1⟩ rfl rfl
  simp at this

end RouteFlow
