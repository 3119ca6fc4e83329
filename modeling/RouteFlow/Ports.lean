import RouteFlow.Channels

/-!
# Which ports are up

A client brings an interface up when it is told so. The server keeps a row for it. Between them are
the PortConfig messages on their way.
-/

namespace RouteFlow

open Store Run

/-! ## What a client makes of its messages -/

/-- What the message does to the state of the port. -/
def PortConfig.apply (p : Nat) (active : Bool) (m : PortConfig) : Bool :=
  if m.vmPort = p then
    match m.operationId with
    | .reset => false
    | .mapSuccess => true
    | .mapRequest | .routemodAck => active
  else active

/-- The state of the port when all messages have arrived. -/
def afterConfigs (p : Nat) (active : Bool) (l : List PortConfig) : Bool := l.foldl (PortConfig.apply p) active

theorem afterConfigs_cons (p : Nat) (a : Bool) (m : PortConfig) (l : List PortConfig) :
    afterConfigs p a (m :: l) = afterConfigs p (m.apply p a) l := rfl

theorem afterConfigs_append (p : Nat) (a : Bool) (l l' : List PortConfig) :
    afterConfigs p a (l ++ l') = afterConfigs p (afterConfigs p a l) l' := List.foldl_append

theorem afterConfigs_eq_self {p : Nat} {a : Bool} {l : List PortConfig}
    (h : ∀ m ∈ l, m.vmPort ≠ p ∨ m.isAck = true) : afterConfigs p a l = a := by
  induction l with
  | nil => rfl
  | cons m rest ih =>
    have hm : m.apply p a = a := by
      unfold PortConfig.apply
      split
      · rename_i hp
        rcases h m List.mem_cons_self with hne | hack
        · exact absurd hp hne
        · have : m.operationId = .routemodAck := by simpa [PortConfig.isAck] using hack
          rw [this]
      · rfl
    rw [afterConfigs_cons, hm]
    exact ih fun x hx => h x (List.mem_cons_of_mem _ hx)

theorem afterConfigs_reset {p : Nat} {a : Bool} {l : List PortConfig} (hr : ∀ m ∈ l, m.operationId = .reset)
    (hp : ∃ m ∈ l, m.vmPort = p) : afterConfigs p a l = false := by
  have hfalse : ∀ l : List PortConfig, (∀ m ∈ l, m.operationId = .reset) →
    afterConfigs p false l = false := by
    intro l hl
    induction l with
    | nil => rfl
    | cons m rest ih =>
      have : m.apply p false = false := by
        unfold PortConfig.apply
        split
        · rw [hl m List.mem_cons_self]
        · rfl
      rw [afterConfigs_cons, this]
      exact ih fun x hx => hl x (List.mem_cons_of_mem _ hx)
  obtain ⟨m, hm, hmp⟩ := hp
  obtain ⟨l₁, l₂, rfl⟩ := List.append_of_mem hm
  rw [afterConfigs_append]
  have : afterConfigs p (afterConfigs p a l₁) (m :: l₂) = afterConfigs p false l₂ := by
    rw [afterConfigs_cons, PortConfig.apply, if_pos hmp, hr m hm]
  rw [this]
  exact hfalse l₂ fun x hx => hr x (by simp [hx])

theorem afterConfigs_decided {p : Nat} {a b : Bool} {l : List PortConfig}
    (h : ∃ m ∈ l, m.vmPort = p ∧ (m.operationId = .reset ∨ m.operationId = .mapSuccess)) :
    afterConfigs p a l = afterConfigs p b l := by
  obtain ⟨m, hm, hmp, hop⟩ := h
  obtain ⟨l₁, l₂, rfl⟩ := List.append_of_mem hm
  have : ∀ x y : Bool, m.apply p x = m.apply p y := by
    intro x y
    unfold PortConfig.apply
    rw [if_pos hmp, if_pos hmp]
    rcases hop with h | h <;> rw [h]
  rw [afterConfigs_append, afterConfigs_append, afterConfigs_cons, afterConfigs_cons,
    this (afterConfigs p a l₁) (afterConfigs p b l₁)]

theorem RFClient.process_ifaces (v : Nat) (c : RFClient) (m : PortConfig) :
    ∀ iface' ∈ (c.process v m).ifaces, ∃ iface ∈ c.ifaces, iface'.port = iface.port ∧
      iface'.active = m.apply iface.port iface.active := by
  have set : ∀ b, ∀ iface' ∈ RFClient.setActive b m.vmPort c.ifaces, ∃ iface ∈ c.ifaces,
      iface'.port = iface.port ∧ iface'.active = if m.vmPort = iface.port then b else iface.active := by
    intro b iface' h
    obtain ⟨iface, hi, rfl⟩ := List.mem_map.mp h
    refine ⟨iface, hi, ?_⟩
    by_cases hp : iface.port = m.vmPort
    · simp [hp]
    · have hp' : m.vmPort ≠ iface.port := fun he => hp he.symm
      simp [hp, hp']
  unfold RFClient.process PortConfig.apply
  cases m.operationId with
  | mapRequest | routemodAck => exact fun iface' h => ⟨iface', h, rfl, by simp⟩
  | reset => exact set false
  | mapSuccess => exact set true

/-! ## Active rows -/

def ActiveRow (t : RFTable) (v p : Nat) : Prop :=
  ∃ r ∈ t.rows, r.val.vm = some ⟨v, p⟩ ∧ r.val.getStatus = .rfentryActive

theorem activeRow_iff {t : RFTable} (hs : RFShaped t) {v p : Nat} :
    ActiveRow t v p ↔ ∃ sh ∈ t.shapes, sh.vm = some ⟨v, p⟩ ∧ sh.status = .rfentryActive := by
  constructor
  · rintro ⟨r, hr, hv, hst⟩
    obtain ⟨sh, hsh⟩ := hs r hr
    rw [hsh, RFShape.entry_vm] at hv
    rw [hsh, RFShape.entry_status] at hst
    exact ⟨sh, ⟨r, hr, hsh⟩, hv, hst⟩
  · rintro ⟨sh, ⟨r, hr, hsh⟩, hv, hst⟩
    exact ⟨r, hr, by rw [hsh, RFShape.entry_vm, hv], by rw [hsh, RFShape.entry_status, hst]⟩

theorem activeRow_put {t : RFTable} (hs : RFShaped t) {q : Row RFEntry} (hq : q ∈ t.rows) {old new : RFShape}
    (hold : q.val = old.entry) (ho : old.status ≠ .rfentryActive)
    (hn : new.status ≠ .rfentryActive) {v p : Nat} :
    ActiveRow (t.put q.id new.entry) v p ↔ ActiveRow t v p := by
  rw [activeRow_iff hs, activeRow_iff (hs.put hq new)]
  constructor
  · rintro ⟨sh, hsh, hv, hst⟩
    rcases Table.mem_view_of_put RFShape.entry_injective hq hsh with rfl | hsh
    · exact absurd hst hn
    · exact ⟨sh, hsh, hv, hst⟩
  · rintro ⟨sh, hsh, hv, hst⟩
    rcases Table.mem_view_put RFShape.entry_injective hq hold hsh with rfl | hsh
    · exact absurd hst ho
    · exact ⟨sh, hsh, hv, hst⟩

theorem activeRow_add {t : RFTable} (hs : RFShaped t) {new : RFShape} (hn : new.status ≠ .rfentryActive)
    {v p : Nat} : ActiveRow (t.add new.entry) v p ↔ ActiveRow t v p := by
  rw [activeRow_iff hs, activeRow_iff (hs.add new)]
  constructor
  · rintro ⟨sh, hsh, hv, hst⟩
    rcases (Table.mem_view_add RFShape.entry_injective).mp hsh with rfl | hsh
    · exact absurd hst hn
    · exact ⟨sh, hsh, hv, hst⟩
  · rintro ⟨sh, hsh, hv, hst⟩
    exact ⟨sh, (Table.mem_view_add RFShape.entry_injective).mpr (Or.inr hsh), hv, hst⟩

theorem RfEffect.activeRow {cfg : Config} {o : Order} {s : Server} {msg : Msg} {t' : RFTable}
    (h : RfEffect cfg o s msg t') (hs : RFShaped s.rftable) (hd : ∀ c d, msg ≠ .datapathDown c d)
    (hm : ∀ v p vs vp, msg ≠ .virtualPlaneMap v p vs vp) (v p : Nat) :
    ActiveRow t' v p ↔ ActiveRow s.rftable v p := by
  cases h with
  | vmIdle _ | dpIdle _ _ _ => exact activeRow_add hs (by simp [RFShape.status])
  | vmJoin hp hr =>
    exact activeRow_put hs (vmPeer_mem hp).1 hr (by simp [RFShape.status]) (by simp [RFShape.status])
  | dpJoin _ hp hr =>
    exact activeRow_put hs (dpPeer_mem hp).1 hr (by simp [RFShape.status]) (by simp [RFShape.status])
  | down _ => exact absurd rfl (hd _ _)
  | map _ _ => exact absurd rfl (hm _ _ _ _)
  | mapKeep _ => exact absurd rfl (hm _ _ _ _)
  | vmKeep | dpStop | dpIsl | dpKeep | routeMod | reply => exact Iff.rfl

/-! ## What the server tells its clients -/

/-- The messages that a handler adds for a port tell the client what the handler did to its rows. -/
def Informs (s s' : Server) (v p : Nat) : Prop :=
  ∃ l, s'.toClient v = s.toClient v ++ l ∧
    ∀ a, (a = true ↔ ActiveRow s.rftable v p) → (afterConfigs p a l = true ↔ ActiveRow s'.rftable v p)

theorem Informs.of_same {s s' : Server} {v p : Nat} (ht : s'.toClient v = s.toClient v)
    (hr : ActiveRow s'.rftable v p ↔ ActiveRow s.rftable v p) : Informs s s' v p :=
  ⟨[], by simp [ht], fun a ha => by rw [hr]; exact ha⟩

section Informs

variable {cfg : Config} {o : Order} {s : Server}

theorem registerVmPort_toClient (v p : Nat) (m : Mac) :
    (Server.registerVmPort cfg o s v p m).1.toClient = s.toClient := by
  unfold Server.registerVmPort
  split
  · rfl
  · split
    · rfl
    · split
      · split <;> rfl
      · rfl

theorem registerIslconf_toClient (confs : List RFISLConfEntry) (s : Server) (c d p : Nat) :
    (Server.registerIslconf o s confs c d p).toClient = s.toClient := by
  induction confs generalizing s with
  | nil => rfl
  | cons conf rest ih =>
    have : (Server.registerIslLine o c d p s conf).toClient = s.toClient := by
      unfold Server.registerIslLine
      dsimp only
      split
      · rfl
      · split
        · split <;> rfl
        · rfl
    rw [Server.registerIslconf, List.foldl_cons]
    exact (ih _).trans this

theorem registerDpPort_toClient (c d p : Nat) :
    (Server.registerDpPort cfg o s c d p).1.toClient = s.toClient := by
  have hcfg : (Server.configDp cfg o s c d).1.toClient = s.toClient := by
    unfold Server.configDp
    split
    · rfl
    · split
      · split
        · rfl
        · dsimp only
          split
          · rfl
          · rw [Server.sendRouteMods_eq]
      · rfl
  unfold Server.registerDpPort
  split
  · rename_i s' e h
    simpa only [h] using hcfg
  · rename_i s' h
    simpa only [h] using hcfg
  · rename_i s' h
    simp only [h] at hcfg
    rw [← hcfg]
    unfold Server.enterDpPort
    split
    · split
      · rfl
      · exact registerIslconf_toClient _ s' c d p
    · split
      · rfl
      · split
        · split <;> rfl
        · rfl

theorem registerRouteMod_toClient (rm : RouteMod) :
    (Server.registerRouteMod cfg o s rm).1.toClient = s.toClient := by
  unfold Server.registerRouteMod
  split
  · rfl
  · dsimp only
    split
    · rfl
    · split
      · rfl
      · split
        · rfl
        · split
          · rfl
          · split
            · split <;> rfl
            · rw [Server.sendRouteMods_eq]
              rfl

theorem sendAll_toClient (acks : List (Nat × PortConfig)) (s : Server) (v : Nat) :
    ∃ l, (acks.foldl (fun s (a : Nat × PortConfig) => s.sendClient a.1 a.2) s).toClient v =
      s.toClient v ++ l ∧ ∀ m ∈ l, ∃ a ∈ acks, a.2 = m := by
  induction acks generalizing s with
  | nil => exact ⟨[], by simp⟩
  | cons a rest ih =>
    obtain ⟨l, hl, hm⟩ := ih (s.sendClient a.1 a.2)
    rw [List.foldl_cons, hl]
    by_cases hv : v = a.1
    · refine ⟨a.2 :: l, by simp [Server.sendClient, hv], ?_⟩
      intro m hmem
      rcases List.mem_cons.mp hmem with rfl | hmem
      · exact ⟨a, List.mem_cons_self, rfl⟩
      · obtain ⟨x, hx, hxm⟩ := hm m hmem
        exact ⟨x, List.mem_cons_of_mem _ hx, hxm⟩
    · refine ⟨l, by simp [Server.sendClient, hv], ?_⟩
      intro m hmem
      obtain ⟨x, hx, hxm⟩ := hm m hmem
      exact ⟨x, List.mem_cons_of_mem _ hx, hxm⟩

theorem sendRoutemodAcks_informs (ha : AcksOnly s) (v p : Nat) : Informs s s.sendRoutemodAcks v p := by
  obtain ⟨l, hl, hm⟩ := sendAll_toClient s.ackQ s v
  refine ⟨l, hl, fun a hiff => ?_⟩
  rw [Server.sendRoutemodAcks_rftable, afterConfigs_eq_self, hiff]
  intro m hmem
  obtain ⟨x, hx, rfl⟩ := hm m hmem
  exact Or.inr (ha x hx)

theorem mapPort_informs (hs : RFShaped s.rftable) (w q vs vp v p : Nat) :
    Informs s (Server.mapPort o s w q vs vp) v p := by
  unfold Server.mapPort
  split
  · exact .of_same rfl Iff.rfl
  · rename_i r he
    split
    · rename_i hst
      obtain ⟨hr, hvm⟩ := RFTable.getEntryByVmPort_some he
      obtain ⟨sh, hsh⟩ := hs r hr
      rw [hsh, RFShape.entry_status] at hst
      rw [hsh, RFShape.entry_vm] at hvm
      obtain ⟨m, d, rfl⟩ := RFShape.eq_associated_of_status hvm hst
      have hrow : r.val.activate vs vp = (RFShape.active ⟨w, q⟩ m d vs vp).entry := by
        rw [hsh, RFShape.entry_activate]
      have hact : ActiveRow (s.rftable.put r.id (r.val.activate vs vp)) v p ↔
          (v = w ∧ p = q) ∨ ActiveRow s.rftable v p := by
        rw [hrow, activeRow_iff (hs.put hr _), activeRow_iff hs]
        constructor
        · rintro ⟨sh, hm, hv, hst⟩
          rcases Table.mem_view_of_put RFShape.entry_injective hr hm with rfl | hm
          · left
            simpa [RFShape.vm, VmPort.ext_iff, eq_comm] using hv
          · exact Or.inr ⟨sh, hm, hv, hst⟩
        · rintro (⟨rfl, rfl⟩ | ⟨sh, hm, hv, hst⟩)
          · exact ⟨_, Table.mem_view_put_self hr _, rfl, rfl⟩
          · rcases Table.mem_view_put RFShape.entry_injective hr hsh hm with rfl | hm
            · simp [RFShape.status] at hst
            · exact ⟨sh, hm, hv, hst⟩
      have hrf : ((s.setRf (some r.id) (r.val.activate vs vp)).rftable) =
          s.rftable.put r.id (r.val.activate vs vp) := rfl
      by_cases hv : v = w
      · subst hv
        refine ⟨[⟨v, q, .mapSuccess⟩], by simp [Server.sendClient, Server.sendProxy, Server.setRf],
          fun a ha => ?_⟩
        simp only [Server.sendClient_rftable, Server.sendProxy_rftable, hrf, hact, true_and, afterConfigs,
          List.foldl_cons, List.foldl_nil, PortConfig.apply]
        by_cases hq : q = p
        · simp [hq]
        · have hq' : p ≠ q := fun he => hq he.symm
          simp only [hq, hq', if_false, false_or]
          exact ha
      · refine .of_same (by simp [Server.sendClient, Server.sendProxy, Server.setRf, hv]) ?_
        simp only [Server.sendClient_rftable, Server.sendProxy_rftable, hrf, hact, hv, false_and, false_or]
    · exact .of_same rfl Iff.rfl

/-! ### A datapath goes down -/

/-- The reset that the row's VM port gets, if it is one of the client. -/
def resetOf (v : Nat) (r : Row RFEntry) : Option PortConfig :=
  if r.val.vmId = some v then some ⟨v, r.val.vmPort.getD 0, .reset⟩ else none

abbrev dpKey (e : RFEntry) : Option Nat × Option Nat × Option Nat := (e.ctId, e.dpId, e.dpPort)

theorem setDpPortsDown_toClient (o : Order) (snapshot : List (Row RFEntry)) (s : Server) (v : Nat) :
    (snapshot.foldl (fun s r => s.setDpPortDown o r.val.ctId r.val.dpId r.val.dpPort) s).toClient v =
      s.toClient v ++ (Table.sweepVisits o dpKey (fun e => e.makeIdle .rfentryIdleVmPort) s.rftable
        (snapshot.map fun r => dpKey r.val)).filterMap (resetOf v) := by
  induction snapshot generalizing s with
  | nil => simp [Table.sweepVisits]
  | cons r rest ih =>
    rw [List.foldl_cons, ih, Server.setDpPortDown_rftable o s (dpKey r.val), List.map_cons]
    unfold Server.setDpPortDown RFTable.getEntryByDpPort
    simp only [Table.sweepVisits, Table.sweepStep]
    cases hf : s.rftable.first o fun e => decide ((e.ctId, e.dpId, e.dpPort) = (dpKey r.val)) with
    | none => rfl
    | some e =>
      simp only [List.filterMap_cons, resetOf]
      cases hv : e.val.vmId with
      | none => simp [Server.resetVmPort, Server.setRf]
      | some w =>
        by_cases hw : w = v
        · subst hw
          simp [Server.resetVmPort, Server.sendClient, Server.setRf]
        · have hw' : v ≠ w := fun he => hw he.symm
          simp [Server.resetVmPort, Server.sendClient, Server.setRf, hw, hw']

theorem setDpDown_toClient (o : Order) (s : Server) (c d : Nat) :
    ∃ visits : List (Row RFEntry), visits.Perm (s.rftable.rows.filter fun r => Server.onDp c d r.val) ∧
      ∀ v, (Server.setDpDown o s c d).toClient v = s.toClient v ++ visits.filterMap (resetOf v) := by
  refine ⟨_, ?_, fun v => setDpPortsDown_toClient o _ s v⟩
  exact Table.sweepVisits_perm o dpKey (fun k => k.1 == some c && k.2.1 == some d) _
    (fun e _ => by simp [RFEntry.makeIdle]) _ s.rftable
    (Table.find_keys_perm o dpKey (fun k => k.1 == some c && k.2.1 == some d) s.rftable)

/-- The VM ports of the datapath are not active anywhere else. -/
def DownIsClean (t : RFTable) (c d : Nat) : Prop :=
  ∀ r ∈ t.rows, ∀ q ∈ t.rows, ∀ v, r.val.vm = some v → q.val.vm = some v →
    Server.onDp c d r.val = true → q.val.getStatus = .rfentryActive → Server.onDp c d q.val = true

theorem activeRow_down (hs : RFShaped s.rftable) (c d v p : Nat) :
    ActiveRow (Server.setDpDown o s c d).rftable v p ↔
      ∃ r ∈ s.rftable.rows, r.val.vm = some ⟨v, p⟩ ∧ r.val.getStatus = .rfentryActive ∧
        Server.onDp c d r.val = false := by
  have hrows := Server.setDpDown_rftable o s c d
  constructor
  · rintro ⟨r, hr, hv, hst⟩
    rw [hrows] at hr
    obtain ⟨q, hq, rfl⟩ := List.mem_map.mp hr
    by_cases hon : Server.onDp c d q.val = true
    · obtain ⟨sh, hsh⟩ := hs q hq
      simp only [Table.changeWhere, hon, if_true] at hst
      rw [hsh, RFShape.entry_makeIdle, RFShape.entry_status] at hst
      cases sh <;> simp [RFShape.down, RFShape.status] at hst
    · simp only [Table.changeWhere, hon] at hv hst
      exact ⟨q, hq, hv, hst, by simpa using hon⟩
  · rintro ⟨r, hr, hv, hst, hon⟩
    refine ⟨r, ?_, hv, hst⟩
    rw [hrows]
    exact List.mem_map.mpr ⟨r, hr, by simp [Table.changeWhere, hon]⟩

theorem setDpDown_informs (hs : RFShaped s.rftable) {c d : Nat} (hc : DownIsClean s.rftable c d) (v p : Nat) :
    Informs s (Server.setDpDown o s c d) v p := by
  obtain ⟨visits, hperm, hsent⟩ := setDpDown_toClient o s c d
  refine ⟨visits.filterMap (resetOf v), hsent v, fun a ha => ?_⟩
  rw [activeRow_down hs]
  have hreset : ∀ m ∈ visits.filterMap (resetOf v), m.operationId = .reset := by
    intro m hm
    obtain ⟨r, -, hr⟩ := List.mem_filterMap.mp hm
    unfold resetOf at hr
    split at hr
    · rw [Option.some.injEq] at hr
      rw [← hr]
    · cases hr
  have hport : (∃ m ∈ visits.filterMap (resetOf v), m.vmPort = p) ↔
      ∃ r ∈ s.rftable.rows, r.val.vm = some ⟨v, p⟩ ∧ Server.onDp c d r.val = true := by
    constructor
    · rintro ⟨m, hm, rfl⟩
      obtain ⟨r, hr, hrm⟩ := List.mem_filterMap.mp hm
      obtain ⟨hrow, hon⟩ := List.mem_filter.mp (hperm.mem_iff.mp hr)
      unfold resetOf at hrm
      split at hrm
      · rename_i hvm
        obtain ⟨sh, hsh⟩ := hs r hrow
        rw [Option.some.injEq] at hrm
        refine ⟨r, hrow, ?_, hon⟩
        rw [← hrm, hsh, RFShape.entry_vm]
        rw [hsh] at hvm
        cases sh <;> simp_all [RFShape.entry, RFShape.vm, VmPort.ext_iff]
      · cases hrm
    · rintro ⟨r, hrow, hvm, hon⟩
      obtain ⟨hv, hp⟩ := (RFEntry.vm_eq_some _ _).mp hvm
      have hr : r ∈ visits := hperm.mem_iff.mpr (List.mem_filter.mpr ⟨hrow, hon⟩)
      exact ⟨⟨v, p, .reset⟩, List.mem_filterMap.mpr ⟨r, hr, by simp [resetOf, hv, hp]⟩, rfl⟩
  by_cases hex : ∃ m ∈ visits.filterMap (resetOf v), m.vmPort = p
  · rw [afterConfigs_reset hreset hex]
    obtain ⟨r, hr, hvm, hon⟩ := hport.mp hex
    simp only [Bool.false_eq_true, false_iff]
    rintro ⟨q, hq, hqv, hst, hoff⟩
    rw [hc r hr q hq _ hvm hqv hon hst] at hoff
    cases hoff
  · have hnone : ∀ m ∈ visits.filterMap (resetOf v), m.vmPort ≠ p ∨ m.isAck = true :=
      fun m hm => Or.inl fun he => hex ⟨m, hm, he⟩
    rw [afterConfigs_eq_self hnone, ha]
    constructor
    · rintro ⟨r, hr, hvm, hst⟩
      refine ⟨r, hr, hvm, hst, ?_⟩
      by_contra hon
      exact hex (hport.mpr ⟨r, hr, hvm, by simpa using hon⟩)
    · rintro ⟨r, hr, hvm, hst, -⟩
      exact ⟨r, hr, hvm, hst⟩

theorem process_informs (hs : RFShaped s.rftable) (ha : AcksOnly s) (msg : Msg)
    (hc : ∀ c d, msg = .datapathDown c d → DownIsClean s.rftable c d) (v p : Nat) :
    Informs s (Server.process cfg o s msg).1 v p := by
  have he := step_effect cfg o s hs msg
  cases msg with
  | portRegister w q m =>
    exact .of_same (congrFun (registerVmPort_toClient w q m) v) (he.activeRow hs (by simp) (by simp) v p)
  | routeMod rm =>
    exact .of_same (congrFun (registerRouteMod_toClient rm) v) (he.activeRow hs (by simp) (by simp) v p)
  | datapathPortRegister c d q =>
    exact .of_same (congrFun (registerDpPort_toClient c d q) v) (he.activeRow hs (by simp) (by simp) v p)
  | datapathDown c d => exact setDpDown_informs hs (hc c d rfl) v p
  | virtualPlaneMap w q vs vp => exact mapPort_informs hs w q vs vp v p
  | routeModReply => exact sendRoutemodAcks_informs ha v p

end Informs

/-! ## Agreement -/

/-- A message that may change the port is on its way. -/
def InFlightFor (s : System) (v p : Nat) : Prop :=
  (∃ m, Msg.portRegister v p m ∈ s.toServer v) ∨ (∃ vs vp, Msg.virtualPlaneMap v p vs vp ∈ s.fromProxy) ∨
    ∃ m ∈ s.server.toClient v, m.vmPort = p

/-- With nothing in flight for a port, it is up on both sides or on neither. -/
def Agrees (s : System) : Prop :=
  ∀ v, ∀ iface ∈ (s.clients v).ifaces, ¬ InFlightFor s v iface.port →
    (iface.active = true ↔ ActiveRow s.server.rftable v iface.port)

/-- A client restarts only while its interfaces are down, or the server is about to say what they are.
A datapath that goes down takes all active rows of its VM ports with it. -/
def KeepsAgreement (s : System) : Event → Prop
  | .restart v => ∀ iface ∈ (s.clients v).ifaces, iface.active = true → ∃ m ∈ s.server.toClient v,
      m.vmPort = iface.port ∧ (m.operationId = .reset ∨ m.operationId = .mapSuccess)
  | .serverProxy _ i => s.proxyListener = true → ∀ c d, s.fromProxy[i]? = some (.datapathDown c d) →
      DownIsClean s.server.rftable c d
  | _ => True

/-- The rows are what the client will think of them. -/
structure Agreeing (s : System) : Prop where
  wf : WellFormed s
  pending : ∀ v, ∀ iface ∈ (s.clients v).ifaces,
    (afterConfigs iface.port iface.active (s.server.toClient v) = true ↔
      ActiveRow s.server.rftable v iface.port)

theorem Agreeing.agrees {s : System} (h : Agreeing s) : Agrees s := by
  intro v iface hi hno
  rw [← h.pending v iface hi, afterConfigs_eq_self]
  exact fun m hm => Or.inl fun he => hno (Or.inr (Or.inr ⟨m, hm, he⟩))

section Agreeing

variable {cfg : Config} {s : System}

theorem pending_process (h : Agreeing s) (o : Order) (msg : Msg)
    (hc : ∀ c d, msg = .datapathDown c d → DownIsClean s.server.rftable c d) (v : Nat) (iface : Interface)
    (hi : iface ∈ (s.clients v).ifaces) :
    afterConfigs iface.port iface.active ((Server.process cfg o s.server msg).1.toClient v) = true ↔
      ActiveRow (Server.process cfg o s.server msg).1.rftable v iface.port := by
  obtain ⟨l, hl, hinf⟩ := @process_informs cfg o _ h.wf.rf h.wf.acks msg hc v iface.port
  rw [hl, afterConfigs_append]
  exact hinf _ (h.pending v iface hi)

theorem pending_serverClient (h : Agreeing s) (o : Order) (w : Nat) (v : Nat) (iface : Interface)
    (hi : iface ∈ ((s.serverClient cfg o w).clients v).ifaces) :
    afterConfigs iface.port iface.active ((s.serverClient cfg o w).server.toClient v) = true ↔
      ActiveRow (s.serverClient cfg o w).server.rftable v iface.port := by
  have hsame : (s.serverClient cfg o w).clients v = s.clients v :=
    @step_clients cfg s (.serverClient o w) v (Option.some_ne_none v).symm
  rw [hsame] at hi
  unfold System.serverClient
  split
  · rename_i msg rest _ hq
    have hfrom := h.wf.fromClient w msg (by rw [hq]; exact List.mem_cons_self)
    refine pending_process h o msg ?_ v iface hi
    rintro c d rfl
    exact hfrom.elim
  · exact h.pending v iface hi

theorem pending_serverProxy (h : Agreeing s) (o : Order) (i : Nat) (hc : KeepsAgreement s (.serverProxy o i))
    (v : Nat) (iface : Interface) (hi : iface ∈ ((s.serverProxy cfg o i).clients v).ifaces) :
    afterConfigs iface.port iface.active ((s.serverProxy cfg o i).server.toClient v) = true ↔
      ActiveRow (s.serverProxy cfg o i).server.rftable v iface.port := by
  have hsame : (s.serverProxy cfg o i).clients v = s.clients v :=
    @step_clients cfg s (.serverProxy o i) v (Option.some_ne_none v).symm
  rw [hsame] at hi
  unfold System.serverProxy
  split
  · rename_i msg hl hm
    refine pending_process h o msg ?_ v iface hi
    rintro c d rfl
    exact hc hl c d hm
  · exact h.pending v iface hi

theorem pending_clientRecv (h : Agreeing s) (w : Nat) (v : Nat) (iface : Interface)
    (hi : iface ∈ ((s.clientRecv w).clients v).ifaces) :
    afterConfigs iface.port iface.active ((s.clientRecv w).server.toClient v) = true ↔
      ActiveRow (s.clientRecv w).server.rftable v iface.port := by
  unfold System.clientRecv at hi ⊢
  cases hq : s.server.toClient w with
  | nil =>
    simp only [hq] at hi ⊢
    exact h.pending v iface hi
  | cons m rest =>
    simp only [hq, System.setClient] at hi ⊢
    by_cases hv : v = w
    · subst hv
      simp only [Function.update_self] at hi ⊢
      obtain ⟨old, hold, hport, hact⟩ := RFClient.process_ifaces v (s.clients v) m iface hi
      rw [hport, hact, ← afterConfigs_cons, ← hq]
      exact h.pending v old hold
    · simp only [ne_eq, hv, not_false_eq_true, Function.update_of_ne] at hi ⊢
      exact h.pending v iface hi

theorem pending_restart (h : Agreeing s) (w : Nat) (hc : KeepsAgreement s (.restart w)) (v : Nat)
    (iface : Interface) (hi : iface ∈ ((s.restart w).clients v).ifaces) :
    afterConfigs iface.port iface.active ((s.restart w).server.toClient v) = true ↔
      ActiveRow (s.restart w).server.rftable v iface.port := by
  simp only [System.restart, System.setClient, System.sendServer] at hi ⊢
  by_cases hv : v = w
  · subst hv
    simp only [Function.update_self, RFClient.restart] at hi
    obtain ⟨old, hold, rfl⟩ := List.mem_map.mp hi
    rw [← h.pending v old hold]
    cases ha : old.active with
    | false => rfl
    | true =>
      rw [afterConfigs_decided (b := true) (hc old hold ha)]
  · simp only [ne_eq, hv, not_false_eq_true, Function.update_of_ne] at hi
    exact h.pending v iface hi

theorem Agreeing.frame (h : Agreeing s) {s' : System} (hwf : WellFormed s')
    (hi : ∀ v, (s'.clients v).ifaces = (s.clients v).ifaces) (ht : s'.server.toClient = s.server.toClient)
    (hr : s'.server.rftable = s.server.rftable) : Agreeing s' := by
  refine ⟨hwf, fun v iface hm => ?_⟩
  rw [hi v] at hm
  rw [ht, hr]
  exact h.pending v iface hm

theorem setClient_ifaces (v : Nat) (c : RFClient) (w : Nat) (hc : c.ifaces = (s.clients v).ifaces) :
    ((s.setClient v c).clients w).ifaces = (s.clients w).ifaces := by
  by_cases hw : w = v
  · subst hw
    simp [System.setClient, hc]
  · simp [System.setClient, hw]

theorem Agreeing.step (h : Agreeing s) (e : Event) (hc : KeepsAgreement s e) : Agreeing (s.step cfg e) := by
  have hwf : WellFormed (s.step cfg e) := h.wf.step e
  cases e with
  | serverClient o w => exact ⟨hwf, pending_serverClient h o w⟩
  | serverProxy o i => exact ⟨hwf, pending_serverProxy h o i hc⟩
  | clientRecv w => exact ⟨hwf, pending_clientRecv h w⟩
  | restart w => exact ⟨hwf, pending_restart h w hc⟩
  | push w rm => exact h.frame hwf (fun v => setClient_ifaces w _ v rfl) rfl rfl
  | dpUp c d p | dpDown c d => exact h.frame hwf (fun _ => rfl) rfl rfl
  | dpWorker =>
    obtain ⟨hrf, -, -, htc⟩ := dpWorker_frame s.server
    exact h.frame hwf (fun _ => rfl) htc hrf
  | send w =>
    refine h.frame hwf ?_ ?_ ?_
    all_goals simp only [System.step, System.clientSend]
    · intro v
      split
      · split
        · rfl
        · exact setClient_ifaces w _ v rfl
      · split
        · rfl
        · exact setClient_ifaces w _ v rfl
      · exact setClient_ifaces w _ v rfl
    · split
      · split <;> rfl
      · split <;> rfl
      · rfl
    · split
      · split <;> rfl
      · split <;> rfl
      · rfl
  | proxyRecv i =>
    refine h.frame hwf (fun v => ?_) ?_ ?_
    all_goals
      simp only [System.step, System.proxyRecv]
      split
      · rfl
      · split <;> rfl
  | mapSend w iface =>
    refine h.frame hwf (fun v => ?_) ?_ ?_
    all_goals
      simp only [System.step, System.mapSend]
      split <;> rfl
  | mapDeliver i vs vp =>
    refine h.frame hwf (fun v => ?_) ?_ ?_
    all_goals
      simp only [System.step, System.mapDeliver]
      split <;> rfl

end Agreeing

theorem init_agreeing (ifaces : Nat → List Interface) : Agreeing (System.init ifaces) := by
  refine ⟨init_wellFormed ifaces, fun v iface hi => ?_⟩
  simp only [System.init, RFClient.restart, List.mem_map] at hi
  obtain ⟨old, -, rfl⟩ := hi
  simp [System.init, Server.init, afterConfigs, ActiveRow, memoryTable]

/-- In a run whose steps all meet the condition, both sides agree in every state. -/
theorem ports_agree (cfg : Config) (ifaces : Nat → List Interface) (es : List Event)
    (h : Along (System.step cfg) KeepsAgreement (System.init ifaces) es) :
    Always (System.step cfg) Agrees (System.init ifaces) es :=
  always_of_invariant (fun _ e hc hi => hi.step e hc) (fun _ hi => hi.agrees) (init_agreeing ifaces) h

def eth1 : Interface := { port := 1, name := "eth1", hwaddress := 7, physical := true }

/-- The datapath comes up, a mapping packet arrives and the client hears of it. -/
def mappingRun : List Event :=
  [.restart 1, .serverClient Order.insertion 1, .dpUp 0 5 3, .serverProxy Order.insertion 0, .mapSend 1 eth1,
    .mapDeliver 0 0 1, .serverProxy Order.insertion 0, .clientRecv 1]

theorem ports_agree_mapped :
    Always (System.step oneLine) Agrees (System.init fun v => if v = 1 then [eth1] else []) mappingRun := by
  apply ports_agree
  have notDown : ∀ {s : System} {m : Msg}, s.fromProxy[0]? = some m → (∀ c d, m ≠ .datapathDown c d) →
      KeepsAgreement s (.serverProxy Order.insertion 0) := by
    intro s m hm hne _ c d hd
    rw [hm, Option.some.injEq] at hd
    exact absurd hd (hne c d)
  refine ⟨?_, trivial, trivial, ?_, trivial, trivial, ?_, trivial, trivial⟩
  · intro iface hi ha
    simp [System.init, RFClient.restart, eth1] at hi
    rw [hi] at ha
    cases ha
  · exact notDown (m := .datapathPortRegister 0 5 3) (by decide +kernel) (by simp)
  · exact notDown (m := .virtualPlaneMap 1 1 0 1) (by decide +kernel) (by simp)

/-- The same run, after which the client restarts. The server leaves its row active, and the client
waits for a mapping that never comes. -/
theorem restart_disagrees :
    ¬ Agrees (run (System.step oneLine) (System.init fun v => if v = 1 then [eth1] else [])
      (mappingRun ++ [.restart 1, .serverClient Order.insertion 1])) := by
  intro h
  have hiff := h 1 eth1 (by decide +kernel) (by
    rintro (⟨m, hm⟩ | ⟨vs, vp, hm⟩ | ⟨m, hm, -⟩)
    · have hnil : (run (System.step oneLine) (System.init fun v => if v = 1 then [eth1] else [])
        (mappingRun ++ [.restart 1, .serverClient Order.insertion 1])).toServer 1 = [] := by decide +kernel
      rw [hnil] at hm
      cases hm
    · have hnil : (run (System.step oneLine) (System.init fun v => if v = 1 then [eth1] else [])
        (mappingRun ++ [.restart 1, .serverClient Order.insertion 1])).fromProxy = [] := by decide +kernel
      rw [hnil] at hm
      cases hm
    · have hnil : (run (System.step oneLine) (System.init fun v => if v = 1 then [eth1] else [])
        (mappingRun ++ [.restart 1, .serverClient Order.insertion 1])).server.toClient 1 = [] := by
          decide +kernel
      rw [hnil] at hm
      cases hm)
  have hrow : ActiveRow (run (System.step oneLine) (System.init fun v => if v = 1 then [eth1] else [])
      (mappingRun ++ [.restart 1, .serverClient Order.insertion 1])).server.rftable 1 1 :=
    ⟨⟨1001, (RFShape.active ⟨1, 1⟩ 7 ⟨0, 5, 3⟩ 0 1).entry⟩, by decide +kernel, rfl, rfl⟩
  exact absurd (hiff.mpr hrow) (by decide)

end RouteFlow
