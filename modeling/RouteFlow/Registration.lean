import RouteFlow.Isl
import RouteFlow.Lib.Race

/-!
# Two ends register at once

RFServer listens to the clients and to RFProxy in two threads and takes no lock. Here one
`register_vm_port` and one `register_dp_port` run step by step, each query and each `set_entry` a step
of its own.
-/

namespace RouteFlow

open Store Run Race

/-! ## The two handlers, step by step -/

/-- The `action` of a handler, with the rows it is about. -/
inductive RegisterAction where
  | nothing
  | registerIdle
  | registerAssociated (entry : Row RFEntry)
  | registerIsl (confs : List RFISLConfEntry)

/-- How far `register_vm_port` is. -/
inductive VmPc where
  | config
  | lookup (line : RFConfigEntry)
  | apply (action : RegisterAction)
  | done

/-- How far `register_dp_port` is. -/
inductive DpPc where
  | rfRegistered
  | islRegistered
  | configure
  | config
  | islconf
  | lookup (line : RFConfigEntry)
  | apply (action : RegisterAction)
  | done

structure Registering where
  server : Server
  vm : VmPc
  dp : DpPc

inductive Listener where
  | client | proxy
deriving DecidableEq

namespace Registering

def start (s : Server) : Registering := ⟨s, .config, .rfRegistered⟩

section Steps

variable (cfg : Config) (o : Order)

def vmStep (v : VmPort) (ethAddr : Mac) (s : Server) : VmPc → Server × VmPc
  | .config =>
    match RFConfig.getConfigForVmPort o cfg.config v.vmId v.vmPort with
    | none => (s, .apply .registerIdle)
    | some c => (s, .lookup c.val)
  | .lookup c =>
    match RFTable.getEntryByDpPort o s.rftable (some c.ctId) (some c.dpId) (some c.dpPort) with
    | none => (s, .apply .registerIdle)
    | some entry =>
      if entry.val.getStatus = .rfentryIdleDpPort then (s, .apply (.registerAssociated entry))
      else (s, .apply .nothing)
  | .apply .registerIdle => (s.registerIdleVm v.vmId v.vmPort ethAddr, .done)
  | .apply (.registerAssociated entry) =>
    match entry.val.associate v.vmId v.vmPort none (some ethAddr) with
    | .ok e => (s.setRf (some entry.id) e, .done)
    | .error _ => (s, .done)
  | .apply _ => (s, .done)
  | .done => (s, .done)

/-- `configure_datapath` reads tables that nobody writes, and a line of RFISLConf only concerns
RFISLTable. The other thread cannot see their steps, so each of them is one. -/
def dpStep (d : DpPort) (s : Server) : DpPc → Server × DpPc
  | .rfRegistered =>
    if isRfvs d.dpId then (s, .apply .nothing)
    else if RFTable.isDpRegistered o s.rftable d.ctId d.dpId then (s, .configure)
    else (s, .islRegistered)
  | .islRegistered =>
    if RFISLTable.isDpRegistered o s.isltable d.ctId d.dpId then (s, .configure) else (s, .config)
  | .configure =>
    match s.routeModTranslator d.dpId with
    | some _ => (s, .config)
    | none =>
      let tr := Server.newTranslator cfg d.ctId d.dpId
      let s := { s with routeModTranslator := Function.update s.routeModTranslator d.dpId (some tr) }
      match tr.configureDatapath cfg o with
      -- The exception leaves the handler.
      | .error _ => (s, .apply .nothing)
      | .ok rms => (s.sendRouteMods d.ctId rms, .config)
  | .config =>
    match RFConfig.getConfigForDpPort o cfg.config d.ctId d.dpId d.dpPort with
    | none => (s, .islconf)
    | some c => (s, .lookup c.val)
  | .islconf =>
    match RFISLConf.getEntriesByPort o cfg.islconf d.ctId d.dpId d.dpPort with
    | [] => (s, .apply .registerIdle)
    | confs => (s, .apply (.registerIsl (confs.map fun r => r.val)))
  | .lookup c =>
    match RFTable.getEntryByVmPort o s.rftable c.vmId c.vmPort with
    | none => (s, .apply .registerIdle)
    | some entry =>
      if entry.val.getStatus = .rfentryIdleVmPort then (s, .apply (.registerAssociated entry))
      else (s, .apply .nothing)
  | .apply .registerIdle => (s.registerIdleDp d.ctId d.dpId d.dpPort, .done)
  | .apply (.registerAssociated entry) =>
    match entry.val.associate d.dpId d.dpPort (some d.ctId) none with
    | .ok e => (s.setRf (some entry.id) e, .done)
    | .error _ => (s, .done)
  | .apply (.registerIsl (conf :: rest)) =>
    (Server.registerIslLine o d.ctId d.dpId d.dpPort s conf, .apply (.registerIsl rest))
  | .apply _ => (s, .done)
  | .done => (s, .done)

end Steps

variable (cfg : Config) (oV oD : Order) (v : VmPort) (ethAddr : Mac) (d : DpPort)

/-- The threads may meet the rows in different orders. -/
def step (x : Registering) : Listener → Registering
  | .client =>
    let (s, pc) := vmStep cfg oV v ethAddr x.server x.vm
    { x with server := s, vm := pc }
  | .proxy =>
    let (s, pc) := dpStep cfg oD d x.server x.dp
    { x with server := s, dp := pc }

/-! ## Alone, a thread is its handler -/

theorem client_alone (s : Server) (pc : DpPc) :
    run (step cfg oV oD v ethAddr d) ⟨s, .config, pc⟩ [.client, .client, .client] =
      ⟨(Server.registerVmPort cfg oV s v.vmId v.vmPort ethAddr).1, .done, pc⟩ := by
  simp only [run_cons, run_nil, step, vmStep, Server.registerVmPort]
  cases RFConfig.getConfigForVmPort oV cfg.config v.vmId v.vmPort with
  | none => rfl
  | some c =>
    simp only
    cases RFTable.getEntryByDpPort oV s.rftable (some c.val.ctId) (some c.val.dpId) (some c.val.dpPort) with
    | none => rfl
    | some entry =>
      by_cases hidle : entry.val.getStatus = .rfentryIdleDpPort
      · simp only [hidle, if_true]
        cases entry.val.associate v.vmId v.vmPort none (some ethAddr) <;> rfl
      · simp only [hidle, if_false]

/-- The thread of RFProxy can take the one state to the other. -/
def ProxyReaches (x y : Registering) : Prop :=
  ∃ n, run (step cfg oV oD v ethAddr d) x (List.replicate n .proxy) = y

variable {cfg oV oD v ethAddr d}

theorem ProxyReaches.refl (x : Registering) : ProxyReaches cfg oV oD v ethAddr d x x := ⟨0, rfl⟩

theorem ProxyReaches.next {x y : Registering}
    (h : ProxyReaches cfg oV oD v ethAddr d (step cfg oV oD v ethAddr d x .proxy) y) :
    ProxyReaches cfg oV oD v ethAddr d x y := by
  obtain ⟨n, hn⟩ := h
  exact ⟨n + 1, by rw [List.replicate_succ, run_cons, hn]⟩

theorem proxy_islconf (s : Server) (pc : VmPc) (confs : List RFISLConfEntry) :
    ProxyReaches cfg oV oD v ethAddr d ⟨s, pc, .apply (.registerIsl confs)⟩
      ⟨s.registerIslconf oD confs d.ctId d.dpId d.dpPort, pc, .done⟩ := by
  induction confs generalizing s with
  | nil => exact .next (.refl _)
  | cons conf rest ih => exact .next (ih _)

theorem proxy_enters (s : Server) (pc : VmPc) :
    ProxyReaches cfg oV oD v ethAddr d ⟨s, pc, .config⟩
      ⟨(Server.enterDpPort cfg oD s d.ctId d.dpId d.dpPort).1, pc, .done⟩ := by
  apply ProxyReaches.next
  simp only [step, dpStep, Server.enterDpPort]
  cases RFConfig.getConfigForDpPort oD cfg.config d.ctId d.dpId d.dpPort with
  | none =>
    apply ProxyReaches.next
    simp only [step, dpStep]
    cases RFISLConf.getEntriesByPort oD cfg.islconf d.ctId d.dpId d.dpPort with
    | nil => exact .next (.refl _)
    | cons conf rest => exact proxy_islconf s pc _
  | some c =>
    apply ProxyReaches.next
    simp only [step, dpStep]
    cases RFTable.getEntryByVmPort oD s.rftable c.val.vmId c.val.vmPort with
    | none => exact .next (.refl _)
    | some entry =>
      apply ProxyReaches.next
      by_cases hidle : entry.val.getStatus = .rfentryIdleVmPort
      · simp only [hidle, if_true, step, dpStep]
        cases entry.val.associate d.dpId d.dpPort (some d.ctId) none <;> exact .refl _
      · simp only [hidle, if_false, step, dpStep]
        exact .refl _

theorem proxy_configures (s : Server) (pc : VmPc) (hr : isRfvs d.dpId = false)
    (hreg : (RFTable.isDpRegistered oD s.rftable d.ctId d.dpId ||
      RFISLTable.isDpRegistered oD s.isltable d.ctId d.dpId) = true) :
    ProxyReaches cfg oV oD v ethAddr d ⟨s, pc, .configure⟩
      ⟨(Server.registerDpPort cfg oD s d.ctId d.dpId d.dpPort).1, pc, .done⟩ := by
  apply ProxyReaches.next
  simp only [step, dpStep, Server.registerDpPort, Server.configDp, hr, hreg, if_true,
    Bool.false_eq_true, if_false]
  cases s.routeModTranslator d.dpId with
  | some tr => exact proxy_enters s pc
  | none =>
    simp only
    cases (Server.newTranslator cfg d.ctId d.dpId).configureDatapath cfg oD with
    | error e => exact .next (.refl _)
    | ok rms => exact proxy_enters _ pc

theorem proxy_alone (s : Server) (pc : VmPc) :
    ProxyReaches cfg oV oD v ethAddr d ⟨s, pc, .rfRegistered⟩
      ⟨(Server.registerDpPort cfg oD s d.ctId d.dpId d.dpPort).1, pc, .done⟩ := by
  apply ProxyReaches.next
  cases hr : isRfvs d.dpId with
  | true =>
    simp only [step, dpStep, Server.registerDpPort, Server.configDp, hr, if_true]
    exact .next (.refl _)
  | false =>
    simp only [step, dpStep, hr, Bool.false_eq_true, if_false]
    cases hrf : RFTable.isDpRegistered oD s.rftable d.ctId d.dpId with
    | true => exact proxy_configures s pc hr (by rw [hrf, Bool.true_or])
    | false =>
      apply ProxyReaches.next
      simp only [Bool.false_eq_true, if_false, step, dpStep]
      cases hisl : RFISLTable.isDpRegistered oD s.isltable d.ctId d.dpId with
      | true => exact proxy_configures s pc hr (by rw [hrf, hisl, Bool.or_true])
      | false =>
        simp only [Bool.false_eq_true, if_false, Server.registerDpPort, Server.configDp, hr, hrf,
          hisl, Bool.or_self]
        exact proxy_enters s pc

/-! ## What the threads see of each other

Only RFTable is shared, and each handler looks at it once and changes it once.
-/

section Threads

variable (cfg : Config) (o : Order)

def vmThread (v : VmPort) (ethAddr : Mac) : Thread RFTable RegisterAction where
  look t :=
    match RFConfig.getConfigForVmPort o cfg.config v.vmId v.vmPort with
    | none => .registerIdle
    | some c =>
      match RFTable.getEntryByDpPort o t (some c.val.ctId) (some c.val.dpId) (some c.val.dpPort) with
      | none => .registerIdle
      | some entry => if entry.val.getStatus = .rfentryIdleDpPort then .registerAssociated entry else .nothing
  act
    | .registerIdle, t => t.add (RFShape.idleVm v ethAddr).entry
    | .registerAssociated entry, t =>
      match entry.val.associate v.vmId v.vmPort none (some ethAddr) with
      | .ok e => t.put entry.id e
      | .error _ => t
    | _, t => t

/-- Whether `config_dp` lets the registration go on is clear from the start. -/
def dpThread (s : Server) (d : DpPort) : Thread RFTable RegisterAction where
  look t :=
    match (s.configDp cfg o d.ctId d.dpId).2 with
    | .ok false =>
      match RFConfig.getConfigForDpPort o cfg.config d.ctId d.dpId d.dpPort with
      | none =>
        match RFISLConf.getEntriesByPort o cfg.islconf d.ctId d.dpId d.dpPort with
        | [] => .registerIdle
        | _ => .nothing
      | some c =>
        match RFTable.getEntryByVmPort o t c.val.vmId c.val.vmPort with
        | none => .registerIdle
        | some entry =>
          if entry.val.getStatus = .rfentryIdleVmPort then .registerAssociated entry else .nothing
    | _ => .nothing
  act
    | .registerIdle, t => t.add (RFShape.idleDp d).entry
    | .registerAssociated entry, t =>
      match entry.val.associate d.dpId d.dpPort (some d.ctId) none with
      | .ok e => t.put entry.id e
      | .error _ => t
    | _, t => t

end Threads

end Registering

def VmPc.phase : VmPc → Phase RegisterAction
  | .apply a => .looked a
  | .done => .done
  | _ => .fresh

/-- An ISL port leaves RFTable alone. -/
def DpPc.phase : DpPc → Phase RegisterAction
  | .apply (.registerIsl _) => .looked .nothing
  | .apply a => .looked a
  | .done => .done
  | _ => .fresh

namespace Registering

section Refinement

variable {cfg : Config} {o : Order} {v : VmPort} {ethAddr : Mac} {d : DpPort} {s x : Server}

theorem vmStep_step (B : Thread RFTable RegisterAction) (q : Phase RegisterAction) (pc : VmPc)
    (hline : ∀ c, pc = .lookup c → ∃ r, RFConfig.getConfigForVmPort o cfg.config v.vmId v.vmPort =
      some r ∧ r.val = c) :
    Step (vmThread cfg o v ethAddr) B x.rftable pc.phase q (vmStep cfg o v ethAddr x pc).1.rftable
      (vmStep cfg o v ethAddr x pc).2.phase q := by
  cases pc with
  | config =>
    cases hc : RFConfig.getConfigForVmPort o cfg.config v.vmId v.vmPort with
    | none =>
      have hlook : (vmThread cfg o v ethAddr).look x.rftable = .registerIdle := by simp only [vmThread, hc]
      simp only [vmStep, hc, VmPc.phase, ← hlook]
      exact .lookLeft
    | some c =>
      simp only [vmStep, hc]
      exact .stay
  | lookup c =>
    obtain ⟨r, hc, rfl⟩ := hline c rfl
    have hlook : (vmStep cfg o v ethAddr x (.lookup r.val)) =
        (x, .apply ((vmThread cfg o v ethAddr).look x.rftable)) := by
      simp only [vmStep, vmThread, hc]
      split
      · rfl
      · split <;> rfl
    rw [hlook]
    exact .lookLeft
  | apply a =>
    have hact : (vmStep cfg o v ethAddr x (.apply a)).1.rftable = (vmThread cfg o v ethAddr).act a x.rftable ∧
        (vmStep cfg o v ethAddr x (.apply a)).2 = .done := by
      cases a with
      | registerAssociated entry =>
        simp only [vmStep, vmThread]
        split <;> exact ⟨rfl, rfl⟩
      | nothing | registerIdle | registerIsl _ => exact ⟨rfl, rfl⟩
    rw [hact.1, hact.2]
    exact .actLeft
  | done => exact .stay

/-- What the thread of RFProxy has found out, when the server was `s` at the start and is `x` now. -/
def Known (cfg : Config) (o : Order) (d : DpPort) (s x : Server) : DpPc → Prop
  | .rfRegistered => x.isltable = s.isltable ∧ x.routeModTranslator = s.routeModTranslator
  | .islRegistered => x.isltable = s.isltable ∧ x.routeModTranslator = s.routeModTranslator ∧
      isRfvs d.dpId = false ∧ RFTable.isDpRegistered o s.rftable d.ctId d.dpId = false
  | .configure => x.routeModTranslator = s.routeModTranslator ∧ isRfvs d.dpId = false ∧
      (RFTable.isDpRegistered o s.rftable d.ctId d.dpId ||
        RFISLTable.isDpRegistered o s.isltable d.ctId d.dpId) = true
  | .config => dpProceeds cfg o s d.ctId d.dpId
  | .islconf => dpProceeds cfg o s d.ctId d.dpId ∧
      RFConfig.getConfigForDpPort o cfg.config d.ctId d.dpId d.dpPort = none
  | .lookup c => dpProceeds cfg o s d.ctId d.dpId ∧
      ∃ r, RFConfig.getConfigForDpPort o cfg.config d.ctId d.dpId d.dpPort = some r ∧ r.val = c
  | _ => True

theorem dpStep_known (pc : DpPc) (hk : Known cfg o d s x pc)
    (hreg : pc.phase = .fresh → RFTable.isDpRegistered o x.rftable d.ctId d.dpId =
      RFTable.isDpRegistered o s.rftable d.ctId d.dpId) :
    Known cfg o d s (dpStep cfg o d x pc).1 (dpStep cfg o d x pc).2 := by
  cases pc with
  | rfRegistered =>
    have hreg := hreg rfl
    simp only [dpStep]
    split
    · trivial
    · rename_i hr
      split
      · rename_i h
        exact ⟨hk.2, by simpa using hr, by rw [← hreg, h, Bool.true_or]⟩
      · rename_i h
        exact ⟨hk.1, hk.2, by simpa using hr, by rw [← hreg]; simpa using h⟩
  | islRegistered =>
    obtain ⟨hi, ht, hr, hrf⟩ := hk
    simp only [dpStep, hi]
    split
    · rename_i h
      exact ⟨ht, hr, by rw [h, Bool.or_true]⟩
    · rename_i h
      refine (dpProceeds_iff cfg o s d.ctId d.dpId).mpr ?_
      rintro (h' | ⟨h', -⟩)
      · rw [hr] at h'
        cases h'
      · rw [hrf, Bool.false_or] at h'
        exact h h'
  | configure =>
    obtain ⟨ht, hr, hreg⟩ := hk
    simp only [dpStep, ht]
    split
    · rename_i tr htr
      refine (dpProceeds_iff cfg o s d.ctId d.dpId).mpr ?_
      rintro (h' | ⟨-, h', -⟩)
      · rw [hr] at h'
        cases h'
      · rw [htr] at h'
        cases h'
    · split
      · trivial
      · rename_i rms hok
        refine (dpProceeds_iff cfg o s d.ctId d.dpId).mpr ?_
        rintro (h' | ⟨-, -, e, h'⟩)
        · rw [hr] at h'
          cases h'
        · rw [hok] at h'
          cases h'
  | config =>
    simp only [dpStep]
    split
    · rename_i h
      exact ⟨hk, h⟩
    · rename_i c h
      exact ⟨hk, c, h, rfl⟩
  | islconf =>
    simp only [dpStep]
    split <;> trivial
  | lookup c =>
    simp only [dpStep]
    split
    · trivial
    · split <;> trivial
  | apply a =>
    cases a with
    | registerAssociated entry =>
      simp only [dpStep]
      split <;> trivial
    | registerIsl confs => cases confs <;> trivial
    | nothing | registerIdle => trivial
  | done => trivial

theorem dpThread_look_refused (h : dpRefused cfg o s d.ctId d.dpId) (t : RFTable) :
    (dpThread cfg o s d).look t = .nothing := by
  have hno : ¬ (s.configDp cfg o d.ctId d.dpId).2 = .ok false :=
    fun hp => (dpProceeds_iff cfg o s d.ctId d.dpId).mp hp h
  dsimp only [dpThread]
  split
  · rename_i hp
    exact absurd hp hno
  · rfl

theorem dpThread_look {c : Row RFConfigEntry} (h : dpProceeds cfg o s d.ctId d.dpId)
    (hc : RFConfig.getConfigForDpPort o cfg.config d.ctId d.dpId d.dpPort = some c) (t : RFTable) :
    (dpThread cfg o s d).look t = match RFTable.getEntryByVmPort o t c.val.vmId c.val.vmPort with
      | none => .registerIdle
      | some entry =>
        if entry.val.getStatus = .rfentryIdleVmPort then .registerAssociated entry else .nothing := by
  rw [dpProceeds] at h
  simp only [dpThread, h, hc]

theorem dpThread_look_islconf (h : dpProceeds cfg o s d.ctId d.dpId)
    (hc : RFConfig.getConfigForDpPort o cfg.config d.ctId d.dpId d.dpPort = none) (t : RFTable) :
    (dpThread cfg o s d).look t = match RFISLConf.getEntriesByPort o cfg.islconf d.ctId d.dpId d.dpPort with
      | [] => .registerIdle
      | _ => .nothing := by
  rw [dpProceeds] at h
  simp only [dpThread, h, hc]

theorem dpStep_apply (A : Thread RFTable RegisterAction) (p : Phase RegisterAction) (a : RegisterAction) :
    Step A (dpThread cfg o s d) x.rftable p (DpPc.apply a).phase (dpStep cfg o d x (.apply a)).1.rftable p
      (dpStep cfg o d x (.apply a)).2.phase := by
  cases a with
  | registerAssociated entry =>
    have hact : (dpStep cfg o d x (.apply (.registerAssociated entry))).1.rftable =
          (dpThread cfg o s d).act (.registerAssociated entry) x.rftable ∧
        (dpStep cfg o d x (.apply (.registerAssociated entry))).2 = .done := by
      simp only [dpStep, dpThread]
      split <;> exact ⟨rfl, rfl⟩
    rw [hact.1, hact.2]
    exact .actRight
  | registerIsl confs =>
    cases confs with
    | nil => exact .actRight
    | cons conf rest =>
      simp only [dpStep, Server.registerIslLine_rftable]
      exact .stay
  | nothing | registerIdle => exact .actRight

theorem dpStep_step (A : Thread RFTable RegisterAction) (p : Phase RegisterAction) (pc : DpPc)
    (hk : Known cfg o d s x pc) :
    Step A (dpThread cfg o s d) x.rftable p pc.phase (dpStep cfg o d x pc).1.rftable p
      (dpStep cfg o d x pc).2.phase := by
  -- A refused registration has looked, and will do nothing.
  have refused : dpRefused cfg o s d.ctId d.dpId →
      Step A (dpThread cfg o s d) x.rftable p .fresh x.rftable p (.looked .nothing) := by
    intro h
    rw [← dpThread_look_refused h x.rftable]
    exact .lookRight
  cases pc with
  | rfRegistered =>
    simp only [dpStep]
    split
    · rename_i hr
      exact refused (Or.inl hr)
    · split <;> exact .stay
  | islRegistered =>
    simp only [dpStep]
    split <;> exact .stay
  | configure =>
    obtain ⟨ht, hr, hreg⟩ := hk
    simp only [dpStep, ht]
    split
    · exact .stay
    · rename_i htr
      split
      · rename_i e he
        exact refused (Or.inr ⟨hreg, htr, e, he⟩)
      · rw [Server.sendRouteMods_rftable]
        exact .stay
  | config =>
    simp only [dpStep]
    split <;> exact .stay
  | islconf =>
    obtain ⟨hp, hc⟩ := hk
    have hstep : (dpStep cfg o d x .islconf).1 = x ∧
        (dpStep cfg o d x .islconf).2.phase = .looked ((dpThread cfg o s d).look x.rftable) := by
      rw [dpThread_look_islconf hp hc]
      simp only [dpStep]
      split <;> exact ⟨rfl, rfl⟩
    rw [hstep.1, hstep.2]
    exact .lookRight
  | lookup c =>
    obtain ⟨hp, r, hc, rfl⟩ := hk
    have hstep : (dpStep cfg o d x (.lookup r.val)).1 = x ∧
        (dpStep cfg o d x (.lookup r.val)).2.phase = .looked ((dpThread cfg o s d).look x.rftable) := by
      rw [dpThread_look hp hc]
      simp only [dpStep]
      split
      · exact ⟨rfl, rfl⟩
      · split <;> exact ⟨rfl, rfl⟩
    rw [hstep.1, hstep.2]
    exact .lookRight
  | apply a => exact dpStep_apply A p a
  | done => exact .stay

end Refinement

end Registering

end RouteFlow
