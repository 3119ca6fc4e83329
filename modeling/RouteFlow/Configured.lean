import RouteFlow.Emission

/-!
# Datapaths are configured first

`config_dp` wipes a datapath and gives it its first rules, once. It does so when a port registers and
the datapath already has a row, so the first port of a datapath is not enough.
-/

namespace RouteFlow

open Store Run

/-! ## Owners -/

/-- The controller that each configured datapath has. -/
def Server.owners (s : Server) (d : Nat) : Option Nat := (s.routeModTranslator d).map Translator.ctId

section Owners

variable {cfg : Config} {o : Order} {s : Server}

theorem SameFlows.owners {s s' : Server} (h : SameFlows s s') : s'.owners = s.owners := by
  unfold Server.owners
  rw [h.1]

theorem handleIslRouteMod_ctId (tr : Translator) (rf : RFTable) (r : RFISLEntry) (rm : RouteMod) :
    (tr.handleIslRouteMod o rf r rm).1.ctId = tr.ctId := by
  unfold Translator.handleIslRouteMod
  split <;> rfl

theorem islRouteMods_owners (rf : RFTable) (rm : RouteMod) (remotes : List RFISLEntry)
    (trs : Nat → Option Translator) (d : Nat) :
    ((Server.islRouteMods o rf rm remotes trs).1 d).map Translator.ctId = (trs d).map Translator.ctId := by
  induction remotes generalizing trs with
  | nil => rfl
  | cons r rest ih =>
    unfold Server.islRouteMods
    split
    · split
      · rfl
      · rename_i e he
        split
        · rfl
        · rename_i tr htr
          have hupdate : (Function.update trs e (some (tr.handleIslRouteMod o rf r rm).1) d).map
            Translator.ctId =
              (trs d).map Translator.ctId := by
            by_cases hd : d = e
            · subst hd
              simp [htr, handleIslRouteMod_ctId]
            · simp [hd]
          dsimp only
          split
          · exact hupdate
          · exact (ih _).trans hupdate
    · exact ih trs

theorem registerRouteMod_owners (cfg : Config) (o : Order) (s : Server) (rm : RouteMod) :
    (Server.registerRouteMod cfg o s rm).1.owners = s.owners := by
  have htrans : ∀ entry tr rm d, ((Server.translate cfg o s entry tr rm).1 d).map Translator.ctId =
      (s.routeModTranslator d).map Translator.ctId := by
    intro entry tr rm d
    unfold Server.translate
    split
    · rfl
    all_goals first
      | rfl
      | split
        · rfl
        · exact islRouteMods_owners _ _ _ _ d
  funext d
  unfold Server.registerRouteMod
  split
  · rfl
  · dsimp only
    split
    · rfl
    · split
      · rfl
      · split
        · rfl
        · split
          · exact htrans _ _ _ d
          · split
            · split <;> exact htrans _ _ _ d
            · rw [Server.sendRouteMods_eq]
              exact htrans _ _ _ d

/-- The test of `config_dp`: one of the tables has the datapath. -/
def isDpKnown (o : Order) (s : Server) (c d : Nat) : Bool :=
  RFTable.isDpRegistered o s.rftable c d || RFISLTable.isDpRegistered o s.isltable c d

/-- A port of the datapath registers, and `config_dp` finds it known but not configured. -/
def ConfiguresNow (o : Order) (s : Server) (c d : Nat) : Prop :=
  isRfvs d = false ∧ isDpKnown o s c d = true ∧ s.routeModTranslator d = none

instance (o : Order) (s : Server) (c d : Nat) : Decidable (ConfiguresNow o s c d) :=
  inferInstanceAs (Decidable (_ ∧ _ ∧ _))

theorem configDp_configures (hfp : cfg.fpEnabled = false) (o : Order) (s : Server) (c d : Nat) :
    (¬ ConfiguresNow o s c d ∧ SameFlows s (Server.configDp cfg o s c d).1) ∨
    (ConfiguresNow o s c d ∧ ∃ rms, (Server.newTranslator cfg c d).configureDatapath cfg o = .ok rms ∧
      (Server.configDp cfg o s c d).1.routeModTranslator =
        Function.update s.routeModTranslator d (some (Server.newTranslator cfg c d)) ∧
      (Server.configDp cfg o s c d).1.dpQ = s.dpQ ++ rms.map fun f => (c, f.addOption (.ctId c))) := by
  unfold Server.configDp ConfiguresNow isDpKnown
  split
  · rename_i hr
    exact Or.inl ⟨by simp [hr], rfl, rfl⟩
  · rename_i hr
    split
    · rename_i hknown
      split
      · rename_i tr htr
        exact Or.inl ⟨by simp [htr], rfl, rfl⟩
      · rename_i hnone
        obtain ⟨rms, hok⟩ := configureDatapath_ok hfp o (Server.newTranslator cfg c d)
        refine Or.inr ⟨⟨by simpa using hr, hknown, hnone⟩, rms, hok, ?_⟩
        dsimp only
        rw [hok]
        simp only [Server.sendRouteMods_eq, and_self]
    · rename_i hknown
      exact Or.inl ⟨fun h => hknown h.2.1, rfl, rfl⟩

theorem registerDpPort_sameFlows (cfg : Config) (o : Order) (s : Server) (c d p : Nat) :
    SameFlows (Server.configDp cfg o s c d).1 (Server.registerDpPort cfg o s c d p).1 := by
  unfold Server.registerDpPort
  split
  · rename_i s' e heq
    rw [heq]
    exact ⟨rfl, rfl⟩
  · rename_i s' heq
    rw [heq]
    exact ⟨rfl, rfl⟩
  · rename_i s' heq
    rw [heq]
    exact enterDpPort_sameFlows cfg o s' c d p

theorem process_configures (hfp : cfg.fpEnabled = false) (o : Order) (s : Server) {msg : Msg}
    (hmsg : ∀ rm, msg ≠ .routeMod rm) :
    SameFlows s (Server.process cfg o s msg).1 ∨ ∃ c d p rms, msg = .datapathPortRegister c d p ∧
      ConfiguresNow o s c d ∧ (Server.newTranslator cfg c d).configureDatapath cfg o = .ok rms ∧
      (Server.process cfg o s msg).1.routeModTranslator =
        Function.update s.routeModTranslator d (some (Server.newTranslator cfg c d)) ∧
      (Server.process cfg o s msg).1.dpQ = s.dpQ ++ rms.map fun f => (c, f.addOption (.ctId c)) := by
  rcases process_flows cfg o s hmsg with h | ⟨c, d, p, rfl, -⟩
  · exact Or.inl h
  · obtain ⟨htrs, hq⟩ := registerDpPort_sameFlows cfg o s c d p
    rcases configDp_configures hfp o s c d with ⟨-, hsame⟩ | ⟨hnow, rms, hok, htrs', hq'⟩
    · exact Or.inl (hsame.trans ⟨htrs, hq⟩)
    · exact Or.inr ⟨c, d, p, rms, rfl, hnow, hok, htrs.trans htrs', hq.trans hq'⟩

end Owners

/-! ## Wipe before use -/

/-- The RouteMods in the queue for a datapath. The server only ever appends to the queue. -/
def queuedFor (d : Nat) (q : List (Nat × RouteMod)) : List (Nat × RouteMod) := q.filter fun y => y.2.id == d

/-- The groups are deleted first and once, and nothing is added before all flows are deleted. -/
structure Wipes (rms : List RouteMod) : Prop where
  groups : ∃ first rest, rms = first :: rest ∧ first.mod = .deleteGroup ∧ ∀ f ∈ rest, f.mod ≠ .deleteGroup
  flows : ∃ before wipe after, rms = before ++ wipe :: after ∧ wipe.mod = .delete ∧ wipe.matchList = [] ∧
    ∀ f ∈ before, f.mod ≠ .add

/-- A queue of one datapath that begins with a complete `configure_datapath`. -/
structure WipedFirst (cfg : Config) (d : Nat) (q : List (Nat × RouteMod)) : Prop where
  block : ∃ c o rms more, (Server.newTranslator cfg c d).configureDatapath cfg o = .ok rms ∧ Wipes rms ∧
    q = rms.map (fun f => (c, f.addOption (.ctId c))) ++ more ∧ ∀ y ∈ more, y.2.mod ≠ .deleteGroup

theorem queuedFor_append (d : Nat) (q q' : List (Nat × RouteMod)) :
    queuedFor d (q ++ q') = queuedFor d q ++ queuedFor d q' := List.filter_append ..

theorem WipedFirst.append {cfg : Config} {d : Nat} {q q' : List (Nat × RouteMod)} (h : WipedFirst cfg d q)
    (h' : ∀ y ∈ q', y.2.mod ≠ .deleteGroup) : WipedFirst cfg d (q ++ q') := by
  obtain ⟨c, o, rms, more, hok, hw, rfl, hmore⟩ := h.block
  refine ⟨c, o, rms, more ++ q', hok, hw, by rw [List.append_assoc], fun y hy => ?_⟩
  rcases List.mem_append.mp hy with hy | hy
  · exact hmore y hy
  · exact h' y hy

theorem defaultConfigureDatapath_wipes {cfg : Config} (hfp : cfg.fpEnabled = false) {o : Order}
    {tr : Translator} {rms : List RouteMod} (h : tr.defaultConfigureDatapath cfg o = .ok rms) :
    Wipes rms ∧ ∀ f ∈ rms, f.id = tr.dpId := by
  simp only [Translator.defaultConfigureDatapath, Translator.defaultHandleControllerRouteMod, hfp] at h
  cases h
  refine ⟨⟨⟨_, _, rfl, rfl, ?_⟩, [_], _, _, rfl, rfl, rfl, ?_⟩, ?_⟩
  · simp [RouteMod.addAction, RouteMod.addOption, RouteMod.addMatch]
  · simp
  · simp [RouteMod.addAction, RouteMod.addOption, RouteMod.addMatch]

theorem noviFlowConfigureDatapath_wipes {cfg : Config} (hfp : cfg.fpEnabled = false) {o : Order}
    {tr : Translator} {rms : List RouteMod} (h : tr.noviFlowConfigureDatapath cfg o = .ok rms) :
    Wipes rms ∧ ∀ f ∈ rms, f.id = tr.dpId := by
  simp only [Translator.noviFlowConfigureDatapath, Translator.noviFlowHandleControllerRouteMod, hfp] at h
  cases h
  refine ⟨⟨⟨_, _, rfl, rfl, ?_⟩, [_, _], _, _, rfl, rfl, rfl, ?_⟩, ?_⟩
  · simp [RouteMod.addAction, RouteMod.addOption, RouteMod.addMatch, RouteMod.setTable, RouteMod.setMatches]
  · simp
  · simp [RouteMod.addAction, RouteMod.addOption, RouteMod.addMatch, RouteMod.setTable, RouteMod.setMatches]

theorem configureDatapath_wipes {cfg : Config} (hfp : cfg.fpEnabled = false) {o : Order} {tr : Translator}
    {rms : List RouteMod} (h : tr.configureDatapath cfg o = .ok rms) :
    Wipes rms ∧ ∀ f ∈ rms, f.id = tr.dpId := by
  unfold Translator.configureDatapath at h
  cases hk : tr.kind with
  | default | satellite =>
    rw [hk] at h
    exact defaultConfigureDatapath_wipes hfp h
  | noviFlow =>
    rw [hk] at h
    exact noviFlowConfigureDatapath_wipes hfp h

/-- The invariant. `config_dp` has run for the datapaths with an owner, and the others have no RouteMod
yet. -/
structure Ordered (cfg : Config) (s : Server) : Prop where
  new : ∀ d, s.owners d = none → queuedFor d s.dpQ = []
  owned : ∀ d c, s.owners d = some c → WipedFirst cfg d (queuedFor d s.dpQ)

section Ordered

variable {cfg : Config} {o : Order} {s s' : Server}

theorem Ordered.same (h : Ordered cfg s) (hsame : SameFlows s s') : Ordered cfg s' := by
  have ho := hsame.owners
  refine ⟨fun d hd => ?_, fun d c hd => ?_⟩
  · rw [hsame.2]
    exact h.new d (by rw [← ho, hd])
  · rw [hsame.2]
    exact h.owned d c (by rw [← ho, hd])

theorem Ordered.configures (hfp : cfg.fpEnabled = false) (h : Ordered cfg s) {c d : Nat}
    (hnone : s.routeModTranslator d = none) {rms : List RouteMod}
    (hok : (Server.newTranslator cfg c d).configureDatapath cfg o = .ok rms)
    (htrs : s'.routeModTranslator =
      Function.update s.routeModTranslator d (some (Server.newTranslator cfg c d)))
    (hq : s'.dpQ = s.dpQ ++ rms.map fun f => (c, f.addOption (.ctId c))) : Ordered cfg s' := by
  obtain ⟨hw, hids⟩ := configureDatapath_wipes hfp hok
  have hblock : ∀ e, queuedFor e (rms.map fun f => (c, f.addOption (.ctId c))) =
      if e = d then rms.map (fun f => (c, f.addOption (.ctId c))) else [] := by
    intro e
    unfold queuedFor
    split
    · rename_i he
      refine List.filter_eq_self.mpr fun y hy => ?_
      obtain ⟨f, hf, rfl⟩ := List.mem_map.mp hy
      have hid : f.id = d := hids f hf
      simp [RouteMod.addOption, hid, he]
    · rename_i he
      refine List.filter_eq_nil_iff.mpr fun y hy => ?_
      obtain ⟨f, hf, rfl⟩ := List.mem_map.mp hy
      have hid : f.id = d := hids f hf
      simpa [RouteMod.addOption, hid] using Ne.symm he
  have howners : ∀ e, e ≠ d → s'.owners e = s.owners e := by
    intro e he
    simp [Server.owners, htrs, he]
  refine ⟨fun e he => ?_, fun e c' he => ?_⟩
  · by_cases hed : e = d
    · simp [Server.owners, htrs, hed] at he
    · rw [hq, queuedFor_append, hblock, if_neg hed, h.new e (by rw [← howners e hed, he]), List.nil_append]
  · by_cases hed : e = d
    · subst hed
      have hempty : queuedFor e s.dpQ = [] := h.new e (by simp [Server.owners, hnone])
      rw [hq, queuedFor_append, hblock, if_pos rfl, hempty, List.nil_append]
      exact ⟨c, o, rms, [], hok, hw, by rw [List.append_nil], by simp⟩
    · rw [hq, queuedFor_append, hblock, if_neg hed, List.append_nil]
      exact h.owned e c' (by rw [← howners e hed, he])

theorem Ordered.append (h : Ordered cfg s) (ho : s'.owners = s.owners) {new : List (Nat × RouteMod)}
    (hq : s'.dpQ = s.dpQ ++ new)
    (hnew : ∀ y ∈ new, (s.owners y.2.id).isSome ∧ y.2.mod ≠ .deleteGroup) : Ordered cfg s' := by
  refine ⟨fun d hd => ?_, fun d c hd => ?_⟩
  · rw [ho] at hd
    rw [hq, queuedFor_append, h.new d hd, List.nil_append]
    refine List.filter_eq_nil_iff.mpr fun y hy hid => ?_
    have hsome := (hnew y hy).1
    rw [beq_iff_eq.mp hid, hd] at hsome
    cases hsome
  · rw [ho] at hd
    rw [hq, queuedFor_append]
    exact (h.owned d c hd).append fun y hy => (hnew y (List.mem_of_mem_filter hy)).2

end Ordered

theorem registerRouteMod_ordered {cfg : Config} {h : History} (o : Order) (rm : RouteMod)
    (hs : Ordered cfg (run (Server.step cfg) Server.init h)) :
    Ordered cfg (Server.registerRouteMod cfg o (run (Server.step cfg) Server.init h) rm).1 := by
  obtain ⟨hrf, hisl⟩ := run_shaped cfg h
  have ho := registerRouteMod_owners cfg o (run (Server.step cfg) Server.init h) rm
  rcases registerRouteMod_queue hrf hisl cfg o rm with ⟨row, x, tr, hrow, hx, htr, htrans⟩ | ⟨-, hq⟩
  · refine hs.append ho (registerRouteMod_attributed hrf hisl hrow hx htr htrans).2 fun y hy => ?_
    obtain ⟨z, hz, rfl⟩ := List.mem_map.mp hy
    obtain ⟨⟨hid, hmod⟩, hsome, -⟩ := mem_attributed hrf rfl hisl (run_wellKeyed cfg h) hx htr rm hz
    refine ⟨?_, ?_⟩
    · have hid' : (z.2.addOption (.ctId x.ctId)).id = z.1.dpId := hid
      rw [hid', Server.owners, Option.isSome_map]
      exact hsome
    · intro hdel
      have hrm : rm.mod = .deleteGroup := hmod.symm.trans hdel
      simp [attributed, hrm] at hz
  · exact hs.append ho (hq.trans (List.append_nil _).symm) (by simp)

theorem run_ordered {cfg : Config} (hfp : cfg.fpEnabled = false) (h : History) :
    Ordered cfg (run (Server.step cfg) Server.init h) := by
  induction h using List.reverseRecOn with
  | nil => exact ⟨fun _ _ => rfl, fun _ _ hd => by simp [Server.owners, Server.init] at hd⟩
  | append_singleton h e ih =>
    obtain ⟨o, msg⟩ := e
    rw [run_snoc]
    by_cases hmsg : ∃ rm, msg = .routeMod rm
    · obtain ⟨rm, rfl⟩ := hmsg
      exact registerRouteMod_ordered o rm ih
    · rcases process_configures hfp o (run (Server.step cfg) Server.init h) fun rm hrm => hmsg ⟨rm, hrm⟩ with
        hsame | ⟨c, d, p, rms, -, hnow, hok, htrs, hq⟩
      · exact ih.same hsame
      · exact ih.configures hfp hnow.2.2 hok htrs hq

/-- The RouteMods for a datapath begin with one configuration that deletes everything, and no later one
deletes the groups again. -/
theorem wiped_first_once (cfg : Config) (hfp : cfg.fpEnabled = false) (h : History) (d : Nat) :
    let q := queuedFor d (run (Server.step cfg) Server.init h).dpQ
    q ≠ [] → WipedFirst cfg d q := by
  intro q hne
  have hord := run_ordered hfp h
  cases ho : (run (Server.step cfg) Server.init h).owners d with
  | none => exact absurd (hord.new d ho) hne
  | some c => exact hord.owned d c ho

theorem wiped_first_once_oneLine :
    let h := [(Order.insertion, Msg.datapathPortRegister 0 5 3),
      (Order.insertion, Msg.datapathPortRegister 0 5 3)]
    let q := queuedFor 5 (run (Server.step oneLine) Server.init h).dpQ
    q ≠ [] ∧ WipedFirst oneLine 5 q := by
  intro h q
  have hne : q ≠ [] := by decide +kernel
  exact ⟨hne, wiped_first_once oneLine rfl h 5 hne⟩

/-! ## Every datapath in use -/

/-- The datapath has a translator, and its `configure_datapath` has been queued. -/
structure IsConfigured (cfg : Config) (s : Server) (c d : Nat) : Prop where
  translator : (s.routeModTranslator d).isSome
  queued : ∃ o rms, (Server.newTranslator cfg c d).configureDatapath cfg o = .ok rms ∧
    (rms.map fun f => (c, f.addOption (.ctId c))) <:+: s.dpQ

/-- So have the datapaths of all ports that a VM uses, and of all links. -/
structure AllConfigured (cfg : Config) (s : Server) : Prop where
  ports : ∀ r ∈ s.rftable.rows, r.val.getStatus = .rfentryAssociated ∨ r.val.getStatus = .rfentryActive →
    ∀ d, r.val.dpId = some d → ∃ c, r.val.ctId = some c ∧ IsConfigured cfg s c d
  links : ∀ r ∈ s.isltable.rows, r.val.getStatus = .rfislActive →
    ∀ d, r.val.dpId = some d → ∃ c, r.val.ctId = some c ∧ IsConfigured cfg s c d

/-- The owners once `config_dp` has seen a port of the datapath. -/
def ownersAfter (o : Order) (s : Server) (c d : Nat) : Nat → Option Nat :=
  if ConfiguresNow o s c d then Function.update s.owners d (some c) else s.owners

/-- An end of a link is there, and the other one is not. -/
def Waits (t : RFISLTable) (b : IslEnd) : Prop :=
  ∃ r ∈ t.rows, ∃ v, r.val = (⟨v, some b, none⟩ : RFISLShape).entry

/-- A message that brings two ends together finds their datapaths configured. A port that registers
may be the one that configures its own datapath, if another port of it came before. -/
def ConfiguredFirst (cfg : Config) (s : Server) : Order × Msg → Prop
  | (o, .portRegister v p _) => ∀ r y, vmPeer cfg o s.rftable v p = some r →
    r.val = (RFShape.idleDp y).entry →
      s.owners y.dpId = some y.ctId
  | (o, .datapathPortRegister c d p) => isRfvs d = false →
      (∀ r v m, dpPeer cfg o s.rftable c d p = some r → r.val = (RFShape.idleVm v m).entry →
        ownersAfter o s c d d = some c) ∧
      (isIslPort cfg o c d p → Along (Server.registerIslLine o c d p)
        (fun t conf => Waits t.isltable (otherEnd c d conf) → ownersAfter o s c d d = some c ∧
          ownersAfter o s c d (otherEnd c d conf).dpId = some (otherEnd c d conf).ctId)
        s ((RFISLConf.getEntriesByPort o cfg.islconf c d p).map fun r => r.val))
  | _ => True

/-- The invariant: what is in use has an owner, and what has an owner is configured. -/
structure UseOwned (owners : Nat → Option Nat) (rf : RFTable) (isl : RFISLTable) : Prop where
  ports : ∀ sh ∈ rf.shapes, ∀ x, sh.vm ≠ none → sh.dp = some x → owners x.dpId = some x.ctId
  links : ∀ sh ∈ isl.shapes, ∀ a b, sh.near = some a → sh.far = some b → owners a.dpId = some a.ctId

section InUse

variable {cfg : Config} {o : Order} {s : Server}

theorem registerDpPort_owners (hfp : cfg.fpEnabled = false) (o : Order) (s : Server) (c d p : Nat) :
    (Server.registerDpPort cfg o s c d p).1.owners = ownersAfter o s c d := by
  rw [(registerDpPort_sameFlows cfg o s c d p).owners]
  unfold ownersAfter
  rcases configDp_configures hfp o s c d with ⟨hno, hsame⟩ | ⟨hnow, rms, -, htrs, -⟩
  · rw [if_neg hno, hsame.owners]
  · rw [if_pos hnow]
    funext e
    by_cases he : e = d
    · subst he
      simp [Server.owners, htrs, Server.newTranslator]
    · simp [Server.owners, htrs, he]

theorem ownersAfter_mono {c d e c' : Nat} (h : s.owners e = some c') : ownersAfter o s c d e = some c' := by
  unfold ownersAfter
  split
  · rename_i hnow
    have hne : e ≠ d := by
      rintro rfl
      simp [Server.owners, hnow.2.2] at h
    rw [Function.update_of_ne hne, h]
  · exact h

theorem step_owners (hfp : cfg.fpEnabled = false) (o : Order) (s : Server) (msg : Msg) :
    (s.step cfg (o, msg)).owners = s.owners ∨
      ∃ c d p, msg = .datapathPortRegister c d p ∧ (s.step cfg (o, msg)).owners = ownersAfter o s c d := by
  cases msg with
  | datapathPortRegister c d p => exact Or.inr ⟨c, d, p, rfl, registerDpPort_owners hfp o s c d p⟩
  | routeMod rm => exact Or.inl (registerRouteMod_owners cfg o s rm)
  | portRegister v p m => exact Or.inl (registerVmPort_sameFlows v p m).owners
  | datapathDown c d => exact Or.inl (setDpDown_sameFlows c d).owners
  | virtualPlaneMap v p vs vp => exact Or.inl (mapPort_sameFlows v p vs vp).owners
  | routeModReply =>
    rcases @process_flows cfg o s .routeModReply (by simp) with h | ⟨c, d, p, hmsg, -⟩
    · exact Or.inl h.owners
    · cases hmsg

theorem RfEffect.owned {msg : Msg} {t : RFTable} {owners' : Nat → Option Nat} (he : RfEffect cfg o s msg t)
    (hs : RFShaped s.rftable) (hc : ConfiguredFirst cfg s (o, msg))
    (hmono : ∀ e c, s.owners e = some c → owners' e = some c)
    (hdp : ∀ c d p, msg = .datapathPortRegister c d p → owners' = ownersAfter o s c d)
    (h : ∀ sh ∈ s.rftable.shapes, ∀ x, sh.vm ≠ none → sh.dp = some x → s.owners x.dpId = some x.ctId) :
    ∀ sh ∈ t.shapes, ∀ x, sh.vm ≠ none → sh.dp = some x → owners' x.dpId = some x.ctId := by
  have inj := RFShape.entry_injective
  have old : ∀ sh ∈ s.rftable.shapes, ∀ x, sh.vm ≠ none → sh.dp = some x → owners' x.dpId = some x.ctId :=
    fun sh hsh x hv hx => hmono _ _ (h sh hsh x hv hx)
  intro sh hsh x hv hx
  cases he with
  | vmIdle _ =>
    rcases (Table.mem_view_add inj).mp hsh with rfl | hsh
    · cases hx
    · exact old sh hsh x hv hx
  | vmJoin hp hr =>
    rcases Table.mem_view_of_put inj (vmPeer_mem hp).1 hsh with rfl | hsh
    · obtain rfl := Option.some.inj hx
      exact hmono _ _ (hc _ _ hp hr)
    · exact old sh hsh x hv hx
  | dpIdle _ _ _ =>
    rcases (Table.mem_view_add inj).mp hsh with rfl | hsh
    · exact absurd rfl hv
    · exact old sh hsh x hv hx
  | @dpJoin c d p r v m hproc hp hr =>
    rcases Table.mem_view_of_put inj (dpPeer_mem hp).1 hsh with rfl | hsh
    · obtain rfl := Option.some.inj hx
      have hvs : isRfvs d = false := by
        simpa using fun hvs => (dpProceeds_iff cfg o s c d).mp hproc (Or.inl hvs)
      rw [hdp c d p rfl]
      exact (hc hvs).1 r v m hp hr
    · exact old sh hsh x hv hx
  | down ht =>
    rw [RFTable.shapes_down hs ht] at hsh
    obtain ⟨sh', hsh', rfl⟩ := hsh
    rw [RFShape.afterDown_vm] at hv
    exact old sh' hsh' x hv (RFShape.afterDown_dp.mp hx).1
  | @map v p vs vp r m d hrow hr =>
    have hmem := (RFTable.getEntryByVmPort_some hrow).1
    rcases Table.mem_view_of_put inj hmem hsh with rfl | hsh
    · exact old _ ⟨r, hmem, hr⟩ x (by simp [RFShape.vm]) hx
    · exact old sh hsh x hv hx
  | vmKeep | dpStop | dpIsl | dpKeep | mapKeep | routeMod | reply => exact old sh hsh x hv hx

theorem registerIslLine_congr {c d p : Nat} {t t' : Server} (h : t'.isltable = t.isltable)
    (conf : RFISLConfEntry) :
    (Server.registerIslLine o c d p t' conf).isltable = (Server.registerIslLine o c d p t conf).isltable := by
  unfold Server.registerIslLine
  simp only [Server.setIsl, h]
  split
  · rfl
  · split
    · split <;> rfl
    · exact h

theorem registerIslconf_owned {c d p : Nat} {owners' : Nat → Option Nat} (confs : List RFISLConfEntry)
    (t t' : Server) (heq : t'.isltable = t.isltable) (hs : IslShaped t.isltable)
    (hal : Along (Server.registerIslLine o c d p) (fun t conf => Waits t.isltable (otherEnd c d conf) →
      owners' d = some c ∧ owners' (otherEnd c d conf).dpId = some (otherEnd c d conf).ctId) t confs)
    (h : ∀ sh ∈ t.isltable.shapes, ∀ a b, sh.near = some a → sh.far = some b →
      owners' a.dpId = some a.ctId) :
    ∀ sh ∈ (Server.registerIslconf o t' confs c d p).isltable.shapes, ∀ a b, sh.near = some a →
    sh.far = some b →
      owners' a.dpId = some a.ctId := by
  induction confs generalizing t t' with
  | nil =>
    rw [← heq] at h
    exact h
  | cons conf rest ih =>
    have heff := registerIslLine_effect o t hs c d p conf
    refine ih (Server.registerIslLine o c d p t conf) (Server.registerIslLine o c d p t' conf)
      (registerIslLine_congr heq conf) (heff.shaped hs) hal.2 ?_
    intro sh hsh a b ha hb
    rcases heff.origin hsh with hold | ⟨-, hf⟩ | ⟨⟨v, r, hr, hrv⟩, hends⟩
    · exact h sh hold a b ha hb
    · rw [hf] at hb
      cases hb
    · obtain ⟨hthis, hother⟩ := hal.1 ⟨r, hr, v, hrv⟩
      rcases hends with ⟨hn, -⟩ | ⟨hn, -⟩
      · obtain rfl := Option.some.inj (hn.symm.trans ha)
        exact hother
      · obtain rfl := Option.some.inj (hn.symm.trans ha)
        exact hthis

theorem IslStep.owned {msg : Msg} {t : RFISLTable} {owners' : Nat → Option Nat} (he : IslStep cfg o s msg t)
    (hs : IslShaped s.isltable) (hc : ConfiguredFirst cfg s (o, msg))
    (hmono : ∀ e c, s.owners e = some c → owners' e = some c)
    (hdp : ∀ c d p, msg = .datapathPortRegister c d p → owners' = ownersAfter o s c d)
    (h : ∀ sh ∈ s.isltable.shapes, ∀ a b, sh.near = some a → sh.far = some b →
      s.owners a.dpId = some a.ctId) :
    ∀ sh ∈ t.shapes, ∀ a b, sh.near = some a → sh.far = some b → owners' a.dpId = some a.ctId := by
  have old : ∀ sh ∈ s.isltable.shapes, ∀ a b, sh.near = some a → sh.far = some b →
    owners' a.dpId = some a.ctId :=
    fun sh hsh a b ha hb => hmono _ _ (h sh hsh a b ha hb)
  cases he with
  | @register c d p s' heq hproc hisl =>
    have hvs : isRfvs d = false := by
      simpa using fun hvs => (dpProceeds_iff cfg o s c d).mp hproc (Or.inl hvs)
    rw [hdp c d p rfl] at old ⊢
    exact registerIslconf_owned _ s s' heq hs ((hc hvs).2 hisl) old
  | other _ => exact old
  | @down c d =>
    rw [RFISLTable.shapes_down o s hs c d]
    rintro _ ⟨sh, hsh, rfl⟩ a b ha hb
    exact old sh hsh a b (RFISLShape.afterDown_near.mp ha).1 (RFISLShape.afterDown_far.mp hb).1
  | frame _ _ => exact old

theorem run_useOwned (hfp : cfg.fpEnabled = false) (h : History)
    (hc : Along (Server.step cfg) (ConfiguredFirst cfg) Server.init h) :
    UseOwned (run (Server.step cfg) Server.init h).owners (run (Server.step cfg) Server.init h).rftable
      (run (Server.step cfg) Server.init h).isltable := by
  induction h using List.reverseRecOn with
  | nil => exact ⟨fun sh hsh => by simp [Server.init, memoryTable, Table.view] at hsh,
      fun sh hsh => by simp [Server.init, memoryTable, Table.view] at hsh⟩
  | append_singleton h e ih =>
    obtain ⟨o, msg⟩ := e
    rw [along_append] at hc
    rw [run_snoc]
    obtain ⟨hrf, hisl⟩ := run_shaped cfg h
    have hstep := step_owners hfp o (run (Server.step cfg) Server.init h) msg
    have hmono : ∀ e c, (run (Server.step cfg) Server.init h).owners e = some c →
        ((run (Server.step cfg) Server.init h).step cfg (o, msg)).owners e = some c := by
      intro e c he
      rcases hstep with hsame | ⟨c', d, p, -, hafter⟩
      · rw [hsame, he]
      · rw [hafter, ownersAfter_mono he]
    have hdp : ∀ c d p, msg = .datapathPortRegister c d p →
        ((run (Server.step cfg) Server.init h).step cfg (o, msg)).owners =
          ownersAfter o (run (Server.step cfg) Server.init h) c d := by
      rintro c d p rfl
      exact registerDpPort_owners hfp o _ c d p
    exact ⟨(step_effect cfg o _ hrf msg).owned hrf hc.2.1 hmono hdp (ih hc.1).ports,
      (step_isl cfg o _ msg).owned hisl hc.2.1 hmono hdp (ih hc.1).links⟩

theorem RFShape.used {sh : RFShape}
    (hst : sh.entry.getStatus = .rfentryAssociated ∨ sh.entry.getStatus = .rfentryActive)
    {d : Nat} (hd : sh.entry.dpId = some d) : ∃ x, sh.dp = some x ∧ sh.vm ≠ none ∧ x.dpId = d := by
  rw [RFShape.entry_status] at hst
  cases sh with
  | empty | idleVm _ _ => cases hd
  | idleDp y => simp [RFShape.status] at hst
  | associated v m y => exact ⟨y, rfl, by simp [RFShape.vm], Option.some.inj hd⟩
  | active v m y vs vp => exact ⟨y, rfl, by simp [RFShape.vm], Option.some.inj hd⟩

theorem RFISLShape.complete {sh : RFISLShape} (hst : sh.entry.getStatus = .rfislActive) {d : Nat}
    (hd : sh.entry.dpId = some d) : ∃ a b, sh.near = some a ∧ sh.far = some b := by
  rw [RFISLShape.entry_status] at hst
  obtain ⟨v, n, f⟩ := sh
  cases n with
  | none => cases hd
  | some a =>
    cases f with
    | none => simp [RFISLShape.status] at hst
    | some b => exact ⟨a, b, rfl, rfl⟩

end InUse

theorem owned_isConfigured {cfg : Config} (hfp : cfg.fpEnabled = false) (h : History) (d c : Nat)
    (ho : (run (Server.step cfg) Server.init h).owners d = some c) :
    IsConfigured cfg (run (Server.step cfg) Server.init h) c d := by
  have hsome : ((run (Server.step cfg) Server.init h).routeModTranslator d).isSome := by
    rw [← Option.isSome_map (f := Translator.ctId)]
    exact Option.isSome_of_eq_some ho
  refine ⟨hsome, ?_⟩
  clear hsome
  induction h using List.reverseRecOn with
  | nil => simp [Server.owners, Server.init] at ho
  | append_singleton h e ih =>
    obtain ⟨o, msg⟩ := e
    obtain ⟨hrf, hisl⟩ := run_shaped cfg h
    obtain ⟨more, hgrow⟩ := queue_grows hrf hisl cfg (o, msg)
    rw [run_snoc] at ho ⊢
    have old : (run (Server.step cfg) Server.init h).owners d = some c → ∃ o' rms,
        (Server.newTranslator cfg c d).configureDatapath cfg o' = .ok rms ∧
        (rms.map fun f => (c, f.addOption (.ctId c))) <:+:
          (Server.step cfg (run (Server.step cfg) Server.init h) (o, msg)).dpQ := by
      intro ho
      obtain ⟨o', rms, hok, hin⟩ := ih ho
      rw [hgrow]
      exact ⟨o', rms, hok, hin.trans (List.prefix_append _ _).isInfix⟩
    by_cases hmsg : ∃ rm, msg = .routeMod rm
    · obtain ⟨rm, rfl⟩ := hmsg
      exact old (by rw [← ho]; exact (congrFun (registerRouteMod_owners cfg o _ rm) d).symm)
    · rcases process_configures hfp o (run (Server.step cfg) Server.init h) fun rm hrm => hmsg ⟨rm, hrm⟩ with
        hsame | ⟨c', d', p, rms, -, hnow, hok, htrs, hq⟩
      · exact old (by rw [← hsame.owners]; exact ho)
      · by_cases hd : d = d'
        · subst hd
          have hc : c' = c := by simpa [Server.owners, Server.step, htrs, Server.newTranslator] using ho
          subst hc
          refine ⟨o, rms, hok, ?_⟩
          simp only [Server.step, hq]
          exact (List.suffix_append _ _).isInfix
        · exact old (by simpa [Server.owners, Server.step, htrs, hd] using ho)

/-- In a run whose messages find the datapaths configured that they bring into use, all datapaths in
use are. -/
theorem all_configured (cfg : Config) (hfp : cfg.fpEnabled = false) (h : History)
    (hc : Along (Server.step cfg) (ConfiguredFirst cfg) Server.init h) :
    AllConfigured cfg (run (Server.step cfg) Server.init h) := by
  have howned : UseOwned (run (Server.step cfg) Server.init h).owners
      (run (Server.step cfg) Server.init h).rftable (run (Server.step cfg) Server.init h).isltable :=
    run_useOwned hfp h hc
  obtain ⟨hrf, hisl⟩ := run_shaped cfg h
  refine ⟨fun r hr hst d hd => ?_, fun r hr hst d hd => ?_⟩
  · obtain ⟨sh, hsh⟩ := hrf r hr
    rw [hsh] at hst hd ⊢
    obtain ⟨x, hx, hv, rfl⟩ := RFShape.used hst hd
    have hct : sh.entry.ctId = some x.ctId := ((RFEntry.dp_eq_some _ _).mp (by rw [RFShape.entry_dp, hx])).1
    exact ⟨x.ctId, hct, owned_isConfigured hfp h _ _ (howned.ports sh ⟨r, hr, hsh⟩ x hv hx)⟩
  · obtain ⟨sh, hsh⟩ := hisl r hr
    rw [hsh] at hst hd ⊢
    obtain ⟨a, b, ha, hb⟩ := RFISLShape.complete hst hd
    have hn : sh.entry.near = some a := by rw [RFISLShape.entry_near, ha]
    obtain ⟨hct, hdp, -⟩ := (RFISLEntry.near_eq_some _ _).mp hn
    obtain rfl := Option.some.inj (hdp.symm.trans hd)
    exact ⟨a.ctId, hct, owned_isConfigured hfp h _ _ (howned.links sh ⟨r, hr, hsh⟩ a b ha hb)⟩

def spareFirst : History :=
  [(.insertion, .datapathPortRegister 0 5 9), (.insertion, .datapathPortRegister 0 5 3),
   (.insertion, .portRegister 1 1 0x11)]

theorem all_configured_oneLine :
    (∃ r ∈ (run (Server.step oneLine) Server.init spareFirst).rftable.rows,
      r.val.getStatus = .rfentryAssociated) ∧
      AllConfigured oneLine (run (Server.step oneLine) Server.init spareFirst) := by
  have hisl : ∀ o c d p, ¬ isIslPort oneLine o c d p := by
    intro o c d p h
    refine h.2 (List.eq_nil_iff_forall_not_mem.mpr fun r hr => ?_)
    have hmem := (mem_getEntriesByPort.mp hr).1
    simp [oneLine, memoryTable, Table.empty] at hmem
  refine ⟨⟨⟨1002, (RFShape.associated ⟨1, 1⟩ 0x11 ⟨0, 5, 3⟩).entry⟩, by decide +kernel, rfl⟩,
    all_configured oneLine rfl spareFirst ⟨?_, ?_, ?_, trivial⟩⟩
  · intro _
    have hpeer : dpPeer oneLine .insertion Server.init.rftable 0 5 9 = none := by decide +kernel
    exact ⟨fun r v m hr => (by rw [hpeer] at hr; cases hr), fun h => absurd h (hisl _ _ _ _)⟩
  · intro _
    have hpeer : dpPeer oneLine .insertion
        (Server.init.step oneLine (.insertion, .datapathPortRegister 0 5 9)).rftable 0 5 3 = none := by
          decide +kernel
    exact ⟨fun r v m hr => (by rw [hpeer] at hr; cases hr), fun h => absurd h (hisl _ _ _ _)⟩
  · intro r y hr hy
    have hpeer : vmPeer oneLine .insertion
      ((Server.init.step oneLine (.insertion, .datapathPortRegister 0 5 9)).step
        oneLine (.insertion, .datapathPortRegister 0 5 3)).rftable 1 1 =
          some ⟨1002, (RFShape.idleDp ⟨0, 5, 3⟩).entry⟩ := by decide +kernel
    obtain rfl := Option.some.inj (hpeer.symm.trans hr)
    obtain rfl := RFShape.idleDp.inj (RFShape.entry_injective hy)
    decide +kernel

/-- The first port of the datapath finds its client waiting. -/
theorem first_port_unconfigured :
    let s := run (Server.step oneLine) Server.init
      [(.insertion, .portRegister 1 1 0x11), (.insertion, .datapathPortRegister 0 5 3)]
    s.routeModTranslator 5 = none ∧ s.dpQ = [] ∧ ¬ AllConfigured oneLine s := by
  intro s
  have hnone : s.routeModTranslator 5 = none := by decide +kernel
  refine ⟨hnone, by decide +kernel, fun h => ?_⟩
  have hrow : (⟨1001, (RFShape.associated ⟨1, 1⟩ 0x11 ⟨0, 5, 3⟩).entry⟩ : Row RFEntry) ∈
    s.rftable.rows := by
    decide +kernel
  obtain ⟨c, -, hconf⟩ := h.ports _ hrow (Or.inl rfl) 5 rfl
  have hsome := hconf.translator
  rw [hnone] at hsome
  cases hsome

end RouteFlow
