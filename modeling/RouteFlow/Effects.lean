import RouteFlow.Rows

/-!
# What one message does to RFTable

`RfEffect` lists every change that a message can make, with the lookups that lead to it. Invariants
of the table follow from it and do not unfold the handlers.
-/

namespace RouteFlow

open Store

namespace Server

/-! ## Frames -/

section Frames

variable (s : Server)

@[simp] theorem setRf_rftable (id : Option Nat) (e : RFEntry) :
    (s.setRf id e).rftable = setEntry s.rftable id e := rfl
@[simp] theorem setRf_isltable (id : Option Nat) (e : RFEntry) : (s.setRf id e).isltable = s.isltable := rfl
@[simp] theorem setIsl_rftable (id : Option Nat) (e : RFISLEntry) : (s.setIsl id e).rftable = s.rftable := rfl
@[simp] theorem setIsl_isltable (id : Option Nat) (e : RFISLEntry) :
    (s.setIsl id e).isltable = setEntry s.isltable id e := rfl
@[simp] theorem sendClient_rftable (v : Nat) (m : PortConfig) : (s.sendClient v m).rftable = s.rftable := rfl
@[simp] theorem sendClient_isltable (v : Nat) (m : PortConfig) :
    (s.sendClient v m).isltable = s.isltable := rfl
@[simp] theorem sendProxy_rftable (c : Nat) (m : ProxyMsg) : (s.sendProxy c m).rftable = s.rftable := rfl
@[simp] theorem sendProxy_isltable (c : Nat) (m : ProxyMsg) : (s.sendProxy c m).isltable = s.isltable := rfl
@[simp] theorem queueRoutemodAck_rftable (v p : Nat) : (s.queueRoutemodAck v p).rftable = s.rftable := rfl
@[simp] theorem queueRoutemodAck_isltable (v p : Nat) :
    (s.queueRoutemodAck v p).isltable = s.isltable := rfl

theorem sendRouteMods_eq (c : Nat) (rms : List RouteMod) :
    s.sendRouteMods c rms = { s with dpQ := s.dpQ ++ rms.map fun rm => (c, rm.addOption (.ctId c)) } := by
  induction rms generalizing s with
  | nil => simp [sendRouteMods]
  | cons rm rest ih =>
    have := ih (s.sendRouteMod c rm)
    simp only [sendRouteMods, List.foldl_cons] at this ⊢
    rw [this]
    simp [sendRouteMod]

@[simp] theorem sendRouteMods_rftable (c : Nat) (rms : List RouteMod) :
    (s.sendRouteMods c rms).rftable = s.rftable := by rw [sendRouteMods_eq]
@[simp] theorem sendRouteMods_isltable (c : Nat) (rms : List RouteMod) :
    (s.sendRouteMods c rms).isltable = s.isltable := by rw [sendRouteMods_eq]

theorem resetVmPort_rftable (v p : Option Nat) : (s.resetVmPort v p).rftable = s.rftable := by
  cases v <;> rfl
theorem resetVmPort_isltable (v p : Option Nat) : (s.resetVmPort v p).isltable = s.isltable := by
  cases v <;> rfl

theorem sendAll_tables (acks : List (Nat × PortConfig)) :
    (acks.foldl (fun s (a : Nat × PortConfig) => s.sendClient a.1 a.2) s).rftable = s.rftable ∧
    (acks.foldl (fun s (a : Nat × PortConfig) => s.sendClient a.1 a.2) s).isltable = s.isltable := by
  induction acks generalizing s with
  | nil => exact ⟨rfl, rfl⟩
  | cons a rest ih => exact ih (s.sendClient a.1 a.2)

@[simp] theorem sendRoutemodAcks_rftable : s.sendRoutemodAcks.rftable = s.rftable :=
  (sendAll_tables s s.ackQ).1
@[simp] theorem sendRoutemodAcks_isltable : s.sendRoutemodAcks.isltable = s.isltable :=
  (sendAll_tables s s.ackQ).2

variable (cfg : Config) (o : Order)

theorem registerRouteMod_tables (rm : RouteMod) :
    (registerRouteMod cfg o s rm).1.rftable = s.rftable ∧
    (registerRouteMod cfg o s rm).1.isltable = s.isltable := by
  unfold registerRouteMod
  split
  · exact ⟨rfl, rfl⟩
  · dsimp only
    split
    · exact ⟨rfl, rfl⟩
    · split
      · exact ⟨rfl, rfl⟩
      · split
        · exact ⟨rfl, rfl⟩
        · split
          · exact ⟨rfl, rfl⟩
          · split
            · split <;> exact ⟨rfl, rfl⟩
            · simp

theorem configDp_tables (c d : Nat) :
    (configDp cfg o s c d).1.rftable = s.rftable ∧ (configDp cfg o s c d).1.isltable = s.isltable := by
  unfold configDp
  split
  · exact ⟨rfl, rfl⟩
  · split
    · split
      · exact ⟨rfl, rfl⟩
      · dsimp only
        split
        · exact ⟨rfl, rfl⟩
        · simp
    · exact ⟨rfl, rfl⟩

theorem registerIslLine_rftable (c d p : Nat) (conf : RFISLConfEntry) :
    (registerIslLine o c d p s conf).rftable = s.rftable := by
  unfold registerIslLine
  dsimp only
  split
  · rfl
  · split
    · split <;> rfl
    · rfl

theorem registerIslconf_rftable (confs : List RFISLConfEntry) (c d p : Nat) :
    (registerIslconf o s confs c d p).rftable = s.rftable := by
  induction confs generalizing s with
  | nil => rfl
  | cons conf rest ih =>
    rw [registerIslconf, List.foldl_cons]
    exact (ih _).trans (registerIslLine_rftable s o c d p conf)

theorem mapPort_isltable (v p vs vp : Nat) : (mapPort o s v p vs vp).isltable = s.isltable := by
  unfold mapPort
  split
  · rfl
  · split <;> rfl

theorem registerVmPort_isltable (v p : Nat) (m : Mac) :
    (registerVmPort cfg o s v p m).1.isltable = s.isltable := by
  unfold registerVmPort
  split
  · rfl
  · split
    · rfl
    · split
      · split <;> rfl
      · rfl

end Frames

/-! ## A datapath goes down -/

/-- The row is one of the datapath. -/
def onDp (c d : Nat) (e : RFEntry) : Bool := e.ctId == some c && e.dpId == some d

theorem setDpPortDown_rftable (o : Order) (s : Server) (k : Option Nat × Option Nat × Option Nat) :
    (s.setDpPortDown o k.1 k.2.1 k.2.2).rftable =
      s.rftable.sweepStep o (fun e => (e.ctId, e.dpId, e.dpPort))
        (fun e => e.makeIdle .rfentryIdleVmPort) k := by
  unfold setDpPortDown Table.sweepStep RFTable.getEntryByDpPort
  cases s.rftable.first o (fun e => decide ((e.ctId, e.dpId, e.dpPort) = k)) with
  | none => rfl
  | some entry => exact resetVmPort_rftable _ _ _

theorem setDpPortDown_isltable (o : Order) (s : Server) (c d p : Option Nat) :
    (s.setDpPortDown o c d p).isltable = s.isltable := by
  unfold setDpPortDown
  split
  · rfl
  · exact resetVmPort_isltable _ _ _

theorem setDpPortsDown_tables (o : Order) (s : Server) (snapshot : List (Row RFEntry)) :
    let s' := snapshot.foldl (fun s r => s.setDpPortDown o r.val.ctId r.val.dpId r.val.dpPort) s
    s'.rftable = (snapshot.map fun r => (r.val.ctId, r.val.dpId, r.val.dpPort)).foldl
      (Table.sweepStep o (fun e => (e.ctId, e.dpId, e.dpPort)) fun e => e.makeIdle .rfentryIdleVmPort)
      s.rftable ∧ s'.isltable = s.isltable := by
  induction snapshot generalizing s with
  | nil => exact ⟨rfl, rfl⟩
  | cons r rest ih =>
    have := ih (s.setDpPortDown o r.val.ctId r.val.dpId r.val.dpPort)
    simp only [List.foldl_cons, List.map_cons] at this ⊢
    rw [this.1, this.2, setDpPortDown_isltable]
    exact ⟨by rw [← setDpPortDown_rftable o s (r.val.ctId, r.val.dpId, r.val.dpPort)], rfl⟩

theorem setDpDown_rftable (o : Order) (s : Server) (c d : Nat) :
    (setDpDown o s c d).rftable.rows =
      s.rftable.rows.map (Table.changeWhere (onDp c d) fun e => e.makeIdle .rfentryIdleVmPort) := by
  have h := (setDpPortsDown_tables o s (RFTable.getDpEntries o s.rftable c d)).1
  simp only [setDpDown, h]
  exact Table.sweep_rows o (fun e : RFEntry => (e.ctId, e.dpId, e.dpPort))
    (fun k => k.1 == some c && k.2.1 == some d) (fun e => e.makeIdle .rfentryIdleVmPort)
    (fun e _ => by simp [RFEntry.makeIdle]) _ s.rftable
    (Table.find_keys_perm o (fun e : RFEntry => (e.ctId, e.dpId, e.dpPort))
      (fun k => k.1 == some c && k.2.1 == some d) s.rftable)

end Server

/-! ## The effects -/

section Effects

variable (cfg : Config) (o : Order)

/-- The row that `register_vm_port` looks at: that of the datapath port configured for the VM port. -/
def vmPeer (t : RFTable) (v p : Nat) : Option (Row RFEntry) :=
  (RFConfig.getConfigForVmPort o cfg.config v p).bind fun c =>
    RFTable.getEntryByDpPort o t (some c.val.ctId) (some c.val.dpId) (some c.val.dpPort)

/-- The row that `register_dp_port` finds for the VM port of the line. -/
def dpPeer (t : RFTable) (c d p : Nat) : Option (Row RFEntry) :=
  (RFConfig.getConfigForDpPort o cfg.config c d p).bind fun c =>
    RFTable.getEntryByVmPort o t c.val.vmId c.val.vmPort

/-- The port is in no line of `RFConfig` and in some line of `RFISLConf`. -/
def isIslPort (c d p : Nat) : Prop :=
  RFConfig.getConfigForDpPort o cfg.config c d p = none ∧
    RFISLConf.getEntriesByPort o cfg.islconf c d p ≠ []

/-- `config_dp` lets the registration go on. -/
def dpProceeds (s : Server) (c d : Nat) : Prop := (s.configDp cfg o c d).2 = .ok false

/-- What one message can do to `RFTable`. -/
inductive RfEffect (s : Server) : Msg → RFTable → Prop
  | vmIdle {v p m} : vmPeer cfg o s.rftable v p = none →
      RfEffect s (.portRegister v p m) (s.rftable.add (RFShape.idleVm ⟨v, p⟩ m).entry)
  | vmJoin {v p m r d} : vmPeer cfg o s.rftable v p = some r → r.val = (RFShape.idleDp d).entry →
      RfEffect s (.portRegister v p m) (s.rftable.put r.id (RFShape.associated ⟨v, p⟩ m d).entry)
  | vmKeep {v p m r} : vmPeer cfg o s.rftable v p = some r → r.val.getStatus ≠ .rfentryIdleDpPort →
      RfEffect s (.portRegister v p m) s.rftable
  | dpStop {c d p} : ¬ dpProceeds cfg o s c d → RfEffect s (.datapathPortRegister c d p) s.rftable
  | dpIsl {c d p} : dpProceeds cfg o s c d → isIslPort cfg o c d p →
      RfEffect s (.datapathPortRegister c d p) s.rftable
  | dpIdle {c d p} : dpProceeds cfg o s c d → ¬ isIslPort cfg o c d p →
      dpPeer cfg o s.rftable c d p = none →
      RfEffect s (.datapathPortRegister c d p) (s.rftable.add (RFShape.idleDp ⟨c, d, p⟩).entry)
  | dpJoin {c d p r v m} : dpProceeds cfg o s c d → dpPeer cfg o s.rftable c d p = some r →
      r.val = (RFShape.idleVm v m).entry →
      RfEffect s (.datapathPortRegister c d p) (s.rftable.put r.id (RFShape.associated v m ⟨c, d, p⟩).entry)
  | dpKeep {c d p r} : dpProceeds cfg o s c d → dpPeer cfg o s.rftable c d p = some r →
      r.val.getStatus ≠ .rfentryIdleVmPort → RfEffect s (.datapathPortRegister c d p) s.rftable
  | down {c d t} : t.rows = s.rftable.rows.map (Table.changeWhere (Server.onDp c d) fun e =>
        e.makeIdle .rfentryIdleVmPort) → RfEffect s (.datapathDown c d) t
  | map {v p vs vp r m d} : RFTable.getEntryByVmPort o s.rftable v p = some r →
      r.val = (RFShape.associated ⟨v, p⟩ m d).entry →
      RfEffect s (.virtualPlaneMap v p vs vp) (s.rftable.put r.id (RFShape.active ⟨v, p⟩ m d vs vp).entry)
  | mapKeep {v p vs vp} :
      (∀ r, RFTable.getEntryByVmPort o s.rftable v p = some r → r.val.getStatus ≠ .rfentryAssociated) →
      RfEffect s (.virtualPlaneMap v p vs vp) s.rftable
  | routeMod {rm} : RfEffect s (.routeMod rm) s.rftable
  | reply : RfEffect s .routeModReply s.rftable

theorem registerVmPort_effect (s : Server) (hs : RFShaped s.rftable) (v p : Nat) (m : Mac) :
    RfEffect cfg o s (.portRegister v p m) (Server.registerVmPort cfg o s v p m).1.rftable := by
  unfold Server.registerVmPort
  split
  · rename_i hc
    exact .vmIdle (by simp [vmPeer, hc])
  · rename_i c hc
    split
    · rename_i he
      exact .vmIdle (by simp [vmPeer, hc, he])
    · rename_i r he
      have hpeer : vmPeer cfg o s.rftable v p = some r := by simp [vmPeer, hc, he]
      split
      · rename_i hidle
        obtain ⟨sh, hsh⟩ := hs r (Table.first_some he).1
        rw [hsh, RFShape.entry_status] at hidle
        obtain ⟨d, rfl⟩ := RFShape.eq_idleDp_of_status hidle
        rw [hsh, RFShape.associate_vm]
        exact .vmJoin hpeer hsh
      · rename_i hidle
        exact .vmKeep hpeer hidle

theorem enterDpPort_effect (s s' : Server) (ht : s'.rftable = s.rftable)
    (hs : RFShaped s.rftable) (c d p : Nat) (hp : dpProceeds cfg o s c d) :
    RfEffect cfg o s (.datapathPortRegister c d p) (Server.enterDpPort cfg o s' c d p).1.rftable := by
  unfold Server.enterDpPort
  split
  · rename_i hc
    split
    · rename_i hisl
      simp only [Server.registerIdleDp, Server.setRf_rftable, setEntry, ht]
      exact .dpIdle hp (fun h => h.2 hisl) (by simp [dpPeer, hc])
    · rename_i confs hisl
      rw [Server.registerIslconf_rftable, ht]
      exact .dpIsl hp ⟨hc, hisl⟩
  · rename_i line hc
    have hnot : ¬ isIslPort cfg o c d p := fun h => by simp [isIslPort, hc] at h
    rw [ht]
    split
    · rename_i he
      simp only [Server.registerIdleDp, Server.setRf_rftable, setEntry, ht]
      exact .dpIdle hp hnot (by simp [dpPeer, hc, he])
    · rename_i r he
      have hpeer : dpPeer cfg o s.rftable c d p = some r := by simp [dpPeer, hc, he]
      split
      · rename_i hidle
        obtain ⟨sh, hsh⟩ := hs r (Table.first_some he).1
        rw [hsh, RFShape.entry_status] at hidle
        obtain ⟨v, m, rfl⟩ := RFShape.eq_idleVm_of_status hidle
        rw [hsh, RFShape.associate_dp]
        simp only [Server.setRf_rftable, setEntry, ht]
        exact .dpJoin hp hpeer hsh
      · rename_i hidle
        rw [ht]
        exact .dpKeep hp hpeer hidle

theorem registerDpPort_effect (s : Server) (hs : RFShaped s.rftable) (c d p : Nat) :
    RfEffect cfg o s (.datapathPortRegister c d p) (Server.registerDpPort cfg o s c d p).1.rftable := by
  have ht := (Server.configDp_tables s cfg o c d).1
  unfold Server.registerDpPort
  split
  · rename_i s' e h
    simp only [h] at ht
    rw [ht]
    exact .dpStop (by simp [dpProceeds, h])
  · rename_i s' h
    simp only [h] at ht
    rw [ht]
    exact .dpStop (by simp [dpProceeds, h])
  · rename_i s' h
    simp only [h] at ht
    exact enterDpPort_effect cfg o s s' ht hs c d p (by simp [dpProceeds, h])

theorem mapPort_effect (s : Server) (hs : RFShaped s.rftable) (v p vs vp : Nat) :
    RfEffect cfg o s (.virtualPlaneMap v p vs vp) (Server.mapPort o s v p vs vp).rftable := by
  unfold Server.mapPort
  split
  · rename_i he
    exact .mapKeep (by simp [he])
  · rename_i r he
    split
    · rename_i hst
      obtain ⟨hr, hvm⟩ := RFTable.getEntryByVmPort_some he
      obtain ⟨sh, hsh⟩ := hs r hr
      rw [hsh, RFShape.entry_status] at hst
      rw [hsh, RFShape.entry_vm] at hvm
      obtain ⟨m, d, rfl⟩ := RFShape.eq_associated_of_status hvm hst
      simp only [Server.sendClient_rftable, Server.sendProxy_rftable, Server.setRf_rftable, setEntry]
      rw [hsh, RFShape.entry_activate]
      exact .map he hsh
    · rename_i hst
      refine .mapKeep fun q hq => ?_
      rw [he, Option.some.injEq] at hq
      exact hq ▸ hst

/-- One step lemma for all messages. -/
theorem step_effect (s : Server) (hs : RFShaped s.rftable) (msg : Msg) :
    RfEffect cfg o s msg (s.step cfg (o, msg)).rftable := by
  cases msg with
  | portRegister v p m => exact registerVmPort_effect cfg o s hs v p m
  | routeMod rm =>
    simp only [Server.step, Server.process, (Server.registerRouteMod_tables s cfg o rm).1]
    exact .routeMod
  | datapathPortRegister c d p => exact registerDpPort_effect cfg o s hs c d p
  | datapathDown c d => exact .down (Server.setDpDown_rftable o s c d)
  | virtualPlaneMap v p vs vp => exact mapPort_effect cfg o s hs v p vs vp
  | routeModReply =>
    simp only [Server.step, Server.process, Server.sendRoutemodAcks_rftable]
    exact .reply

variable {cfg o}

theorem vmPeer_mem {t : RFTable} {v p : Nat} {r : Row RFEntry} (h : vmPeer cfg o t v p = some r) :
    r ∈ t.rows ∧ ∃ c ∈ cfg.config.rows, c.val.vm = ⟨v, p⟩ ∧ r.val.dp = some c.val.dp := by
  obtain ⟨c, hc, he⟩ := Option.bind_eq_some_iff.mp h
  obtain ⟨hr, hd⟩ := RFTable.getEntryByDpPort_some he
  obtain ⟨hcm, hcv⟩ := RFConfig.getConfigForVmPort_some hc
  exact ⟨hr, c, hcm, hcv, hd⟩

theorem dpPeer_mem {t : RFTable} {c d p : Nat} {r : Row RFEntry} (h : dpPeer cfg o t c d p = some r) :
    r ∈ t.rows ∧ ∃ l ∈ cfg.config.rows, l.val.dp = ⟨c, d, p⟩ ∧ r.val.vm = some l.val.vm := by
  obtain ⟨l, hl, he⟩ := Option.bind_eq_some_iff.mp h
  obtain ⟨hr, hv⟩ := RFTable.getEntryByVmPort_some he
  obtain ⟨hlm, hld⟩ := RFConfig.getConfigForDpPort_some hl
  exact ⟨hr, l, hlm, hld, hv⟩

theorem vmPeer_none {t : RFTable} {v p : Nat} (h : vmPeer cfg o t v p = none) :
    (∀ c ∈ cfg.config.rows, c.val.vm ≠ ⟨v, p⟩) ∨
      ∃ c ∈ cfg.config.rows, c.val.vm = ⟨v, p⟩ ∧ ∀ r ∈ t.rows, r.val.dp ≠ some c.val.dp := by
  cases hc : RFConfig.getConfigForVmPort o cfg.config v p with
  | none => exact Or.inl (RFConfig.getConfigForVmPort_none.mp hc)
  | some c =>
    obtain ⟨hcm, hcv⟩ := RFConfig.getConfigForVmPort_some hc
    have he : RFTable.getEntryByDpPort o t (some c.val.ctId) (some c.val.dpId)
      (some c.val.dpPort) = none := by
      simpa [vmPeer, hc] using h
    exact Or.inr ⟨c, hcm, hcv, RFTable.getEntryByDpPort_none.mp he⟩

theorem dpPeer_none {t : RFTable} {c d p : Nat} (h : dpPeer cfg o t c d p = none) :
    (∀ l ∈ cfg.config.rows, l.val.dp ≠ ⟨c, d, p⟩) ∨
      ∃ l ∈ cfg.config.rows, l.val.dp = ⟨c, d, p⟩ ∧ ∀ r ∈ t.rows, r.val.vm ≠ some l.val.vm := by
  cases hl : RFConfig.getConfigForDpPort o cfg.config c d p with
  | none => exact Or.inl (RFConfig.getConfigForDpPort_none.mp hl)
  | some l =>
    obtain ⟨hlm, hld⟩ := RFConfig.getConfigForDpPort_some hl
    have he : RFTable.getEntryByVmPort o t l.val.vmId l.val.vmPort = none := by
      simpa [dpPeer, hl] using h
    exact Or.inr ⟨l, hlm, hld, RFTable.getEntryByVmPort_none.mp he⟩

/-! ## Shapes are kept -/

theorem changeWhere_entry (c d : Nat) (i : Nat) (sh : RFShape) :
    (Table.changeWhere (Server.onDp c d) (fun e => e.makeIdle .rfentryIdleVmPort) ⟨i, sh.entry⟩).val =
      (if Server.onDp c d sh.entry then sh.down else sh).entry := by
  unfold Table.changeWhere
  split
  · exact RFShape.entry_makeIdle sh
  · rfl

theorem onDp_entry (c d : Nat) (sh : RFShape) :
    Server.onDp c d sh.entry = true ↔ ∃ p, sh.dp = some ⟨c, d, p⟩ := by
  cases sh <;> simp [Server.onDp, RFShape.entry, RFShape.dp, DpPort.ext_iff]

theorem RFShaped.add {t : RFTable} (h : RFShaped t) (sh : RFShape) : RFShaped (t.add sh.entry) := by
  intro r hr
  rcases (Table.mem_add t _ r).mp hr with hr | rfl
  · exact h r hr
  · exact ⟨sh, rfl⟩

theorem RFShaped.put {t : RFTable} (h : RFShaped t) {q : Row RFEntry} (hq : q ∈ t.rows) (sh : RFShape) :
    RFShaped (t.put q.id sh.entry) := by
  intro r hr
  rcases (Table.mem_put hq _ r).mp hr with rfl | ⟨hr, _⟩
  · exact ⟨sh, rfl⟩
  · exact h r hr

theorem RfEffect.shaped {s : Server} {msg : Msg} {t : RFTable} (h : RfEffect cfg o s msg t)
    (hs : RFShaped s.rftable) : RFShaped t := by
  cases h with
  | vmIdle _ => exact hs.add _
  | vmJoin hp _ => exact hs.put (vmPeer_mem hp).1 _
  | dpIdle _ _ _ => exact hs.add _
  | dpJoin _ hp _ => exact hs.put (dpPeer_mem hp).1 _
  | down ht =>
    intro r hr
    rw [ht] at hr
    obtain ⟨q, hq, rfl⟩ := List.mem_map.mp hr
    obtain ⟨sh, hsh⟩ := hs q hq
    exact ⟨_, by rw [show q = ⟨q.id, sh.entry⟩ by rw [← hsh]]; exact changeWhere_entry _ _ _ sh⟩
  | map he _ => exact hs.put (Table.first_some he).1 _
  | vmKeep | dpStop | dpIsl | dpKeep | mapKeep | routeMod | reply => exact hs

/-! ## The set of shapes -/

abbrev RFTable.shapes (t : RFTable) : Set RFShape := t.view RFShape.entry

/-- A shape after its datapath, or another, went down. -/
def RFShape.afterDown (c d : Nat) (sh : RFShape) : RFShape :=
  if Server.onDp c d sh.entry then sh.down else sh

theorem RFTable.shapes_down {t t' : RFTable} {c d : Nat} (hs : RFShaped t)
    (ht : t'.rows = t.rows.map (Table.changeWhere (Server.onDp c d) fun e => e.makeIdle .rfentryIdleVmPort)) :
    t'.shapes = Set.image (RFShape.afterDown c d) t.shapes :=
  Table.view_map RFShape.entry_injective ht hs fun i sh => changeWhere_entry c d i sh

theorem RFShape.afterDown_vm (c d : Nat) (sh : RFShape) : (sh.afterDown c d).vm = sh.vm := by
  unfold RFShape.afterDown
  split
  · cases sh <;> rfl
  · rfl

theorem RFShape.afterDown_eth (c d : Nat) (sh : RFShape) : (sh.afterDown c d).eth = sh.eth := by
  unfold RFShape.afterDown
  split
  · cases sh <;> rfl
  · rfl

theorem RFShape.afterDown_dp {c d : Nat} {sh : RFShape} {x : DpPort} :
    (sh.afterDown c d).dp = some x ↔ sh.dp = some x ∧ ¬ (x.ctId = c ∧ x.dpId = d) := by
  unfold RFShape.afterDown
  split
  · rename_i h
    obtain ⟨p, hp⟩ := (onDp_entry c d sh).mp h
    rw [hp, Option.some.injEq]
    constructor
    · intro hx; cases sh <;> simp [RFShape.down, RFShape.dp] at hx
    · rintro ⟨rfl, hx⟩; exact absurd ⟨rfl, rfl⟩ hx
  · rename_i h
    rw [onDp_entry, not_exists] at h
    refine ⟨fun hx => ⟨hx, ?_⟩, And.left⟩
    rintro ⟨rfl, rfl⟩
    exact h x.dpPort hx

theorem init_shaped : RFShaped Server.init.rftable := by
  intro r hr
  simp [Server.init, memoryTable] at hr

theorem step_shaped {s : Server} (hs : RFShaped s.rftable) (m : Order × Msg) :
    RFShaped (s.step cfg m).rftable := (step_effect cfg m.1 s hs m.2).shaped hs

end Effects

end RouteFlow
