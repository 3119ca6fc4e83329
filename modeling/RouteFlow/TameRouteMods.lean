import RouteFlow.Client
import RouteFlow.DatapathConfig
import RouteFlow.Emission
import RouteFlow.Tlv

/-!
# RouteMods that leave the fast paths alone

What the RouteMods of the clients turn into: it has lower priorities than the rules for labels, stays out of
their table, and deletes none of them.
-/

namespace RouteFlow

open Store Run Translator

/-! ## What is allowed -/

theorem Match.ofFastPath_congr {m n : Match} (h : m.type = n.type) : m.ofFastPath = n.ofFastPath := by
  cases m <;> cases n <;> first
    | rfl
    | (simp only [Match.type] at h; repeat' split at h) <;> cases h

/-- A RouteMod that a client may send. -/
structure RouteMod.FromClient (rm : RouteMod) : Prop where
  level : rm.level ≤ PRIORITY_HIGH
  table : rm.table ≠ NOVIFLOW_FP_TABLE
  no_goto : ∀ t, Action.goto t ∉ rm.actions
  controller : rm.mod = .controller → rm.actions = []
  delete : rm.mod = .delete → ∃ m ∈ rm.matchList, m.ofFastPath = false

/-- It has a lower priority than the rules for labels, stays out of their table, does nothing else where
it sends a packet on, and deletes none of them. -/
structure RouteMod.Tame (f : RouteMod) : Prop where
  level : f.level ≤ PRIORITY_HIGH
  table : f.table ≠ NOVIFLOW_FP_TABLE
  quiet : ∀ t, Action.goto t ∈ f.actions → f.actions = [.goto t]
  delete : f.mod = .delete → ∃ m ∈ f.matchList, m.ofFastPath = false

namespace RouteMod

variable {f rm : RouteMod}

theorem level_addOption_ctId (f : RouteMod) (c : Nat) : (f.addOption (.ctId c)).level = f.level := by
  simp [level, priority, addOption]

theorem FromClient.tame (h : rm.FromClient) : rm.Tame :=
  ⟨h.level, h.table, fun t ht => absurd ht (h.no_goto t), h.delete⟩

theorem Tame.addOption_ctId (h : f.Tame) (c : Nat) : (f.addOption (.ctId c)).Tame :=
  ⟨(level_addOption_ctId f c).trans_le h.level, h.table, h.quiet, h.delete⟩

theorem Tame.flow (h : f.Tame) (e : PortEntry) : (e.flow f).Tame := by
  refine ⟨h.level, h.table, h.quiet, fun hd => ?_⟩
  obtain ⟨m, hm, hfast⟩ := h.delete hd
  exact ⟨m, by simp [PortEntry.flow, addMatch, hm], hfast⟩

end RouteMod

theorem tagRule_of_mem {mp : Option Nat} {rm : RouteMod} {ports : List RFConfigEntry} {rms : List RouteMod}
    (h : tagRules mp rm ports = .ok rms) {f : RouteMod} (hf : f ∈ rms) :
    ∃ u, mp = some u ∧ ∃ p ∈ ports, ∃ l, p.fpLabel = some l ∧ f = tagRule u rm l p.dpPort := by
  have hall := (tagRules_ok_iff mp rm ports).mp ⟨rms, h⟩
  cases ports with
  | nil =>
    cases h
    cases hf
  | cons port rest =>
    obtain ⟨u, rfl⟩ := Option.isSome_iff_exists.mp (hall port List.mem_cons_self).2
    obtain ⟨rms', hrms', hmem⟩ := tagRules_labelled u rm fun q hq => (hall q hq).1
    obtain rfl := Except.ok.inj (h.symm.trans hrms')
    exact ⟨u, rfl, (hmem f).mp hf⟩

theorem mem_noviFlowSend {rm f : RouteMod} {out : Option Nat} {es : List PortEntry}
    (h : f ∈ noviFlowSendRmWithMatches rm out es) : f = rm := ((mem_noviFlowSendRmWithMatches ..).mp h).2

section Translators

variable {cfg : Config} {o : Order} {rf : RFTable} {isl : RFISLTable} (hs : RFShaped rf) (hi : IslShaped isl)
  {rm rm' : RouteMod} {rms : List RouteMod}

include hs hi in
theorem handleRouteMod_tame (tr : Translator) {entry : RFEntry} {x : DpPort} (hx : entry.dp = some x)
    (hrm : rm.FromClient) (hmod : rm.mod ≠ .controller)
    (h : tr.handleRouteMod o rf isl entry rm = .ok (rm', rms)) :
    rm'.FromClient ∧ ∀ f ∈ rms, f.Tame := by
  have hout : ∀ t, Action.goto t ∉ rm.actions ++ [.output x.dpPort] := by
    intro t ht
    rcases List.mem_append.mp ht with ht | ht
    · exact hrm.no_goto t ht
    · cases List.mem_singleton.mp ht
  have hread := routeReadable_of_ok hi hx h
  have hdefault : PortsReadable isl x → defaultHandleRouteMod o rf isl entry rm = .ok (rm', rms) →
      rm'.FromClient ∧ ∀ f ∈ rms, f.Tame := by
    intro hports h
    rw [defaultHandleRouteMod_ok hs hi hx hports] at h
    cases h
    have hnew : (rm.addAction (.output x.dpPort)).FromClient :=
      ⟨hrm.level, hrm.table, hout, fun hc => absurd hc hmod, hrm.delete⟩
    refine ⟨hnew, fun f hf => ?_⟩
    obtain ⟨e, -, rfl⟩ := List.mem_map.mp hf
    exact hnew.tame.flow e
  unfold Translator.handleRouteMod at h
  cases hk : tr.kind with
  | default | satellite =>
    rw [hk] at h
    exact hdefault (hread (by simp [hk])) h
  | noviFlow =>
    obtain ⟨-, -, hp⟩ := (RFEntry.dp_eq_some _ _).mp hx
    simp only [hk, noviFlowHandleRouteMod, hp, Action.OUTPUT] at h
    cases h
    have hnew : (((rm.addAction (.output x.dpPort)).setTable NOVIFLOW_FIB_TABLE).setOptions
        [CONTROLLER_PRIORITY]).FromClient :=
      ⟨RouteMod.level_le rfl (by decide), (by decide : NOVIFLOW_FIB_TABLE ≠ NOVIFLOW_FP_TABLE), hout,
        fun hc => absurd hc hmod, hrm.delete⟩
    refine ⟨hnew, fun f hf => ?_⟩
    rw [mem_noviFlowSend hf]
    exact hnew.tame

theorem noviFlowHandleControllerRouteMod_tame (hrm : rm.FromClient) (hmod : rm.mod = .controller) :
    ∀ f ∈ noviFlowHandleControllerRouteMod cfg rm, f.Tame := by
  have hact := hrm.controller hmod
  unfold noviFlowHandleControllerRouteMod
  intro f hf
  have hether : ∀ ms, (((rm.addAction (if cfg.fpEnabled then .goto NOVIFLOW_FP_TABLE
      else .group CONTROLLER_GROUP)).setTable NOVIFLOW_ETHER_TABLE).setMatches ms).Tame := by
    intro ms
    refine ⟨hrm.level, (by decide : NOVIFLOW_ETHER_TABLE ≠ NOVIFLOW_FP_TABLE), fun t ht => ?_, fun hd => ?_⟩
    · simp only [RouteMod.setMatches, RouteMod.setTable, RouteMod.addAction, hact, List.nil_append,
        List.mem_singleton] at ht ⊢
      rw [ht]
    · cases hmod.symm.trans hd
  dsimp only at hf
  split at hf
  · rw [List.mem_singleton.mp hf]
    exact hether _
  · rcases List.mem_cons.mp hf with rfl | hf
    · exact hether _
    · rw [List.mem_singleton.mp hf]
      refine ⟨RouteMod.level_le rfl (by decide), (by decide : (0 : Nat) ≠ NOVIFLOW_FP_TABLE),
        fun t ht => ?_, ?_⟩
      swap
      · rintro ⟨⟩
      rw [← List.mem_singleton.mp ht]
      rfl

theorem handleControllerRouteMod_tame {tr : Translator} (hrm : rm.FromClient) (hmod : rm.mod = .controller)
    (h : tr.handleControllerRouteMod cfg o rm = .ok rms) : ∀ f ∈ rms, f.Tame := by
  have hact := hrm.controller hmod
  have hdefault : tr.defaultHandleControllerRouteMod cfg o rm = .ok rms → ∀ f ∈ rms, f.Tame := by
    intro h
    unfold defaultHandleControllerRouteMod at h
    split at h
    · obtain ⟨mp, hmp, -⟩ := @getFastpathPort_ok cfg o tr
      simp only [hmp, bind, Except.bind] at h
      split at h
      · cases h
      · intro f hf
        obtain ⟨u, -, p, -, l, -, rfl⟩ := tagRule_of_mem h hf
        refine ⟨hrm.level, hrm.table, fun t ht => ?_, fun hd => ?_⟩
        · simp [tagRule, rfactionPushMeta, RouteMod.addAction, RouteMod.addMatch, hact] at ht
        · cases hmod.symm.trans hd
    · cases h
      intro f hf
      rw [List.mem_singleton.mp hf]
      refine ⟨hrm.level, hrm.table, fun t ht => ?_, fun hd => ?_⟩
      · simp [RouteMod.addAction, hact, Action.CONTROLLER] at ht
      · cases hmod.symm.trans hd
  unfold Translator.handleControllerRouteMod at h
  cases hk : tr.kind with
  | default | satellite =>
    rw [hk] at h
    exact hdefault h
  | noviFlow =>
    rw [hk] at h
    cases h
    exact noviFlowHandleControllerRouteMod_tame hrm hmod

include hs in
theorem handleIslRouteMod_tame (tr : Translator) {r : RFISLEntry} {a b : IslEnd} (hn : r.near = some a)
    (hf : r.far = some b) (hrm : rm.FromClient) {tr' : Translator}
    (h : tr.handleIslRouteMod o rf r rm = (tr', .ok rms)) : ∀ f ∈ rms, f.Tame := by
  have hislActions : ∀ t, Action.goto t ∉ [Action.setEthSrc a.mac, .setEthDst b.mac, .output a.dpPort] := by
    simp
  have hdefault : ∀ rm' : RouteMod, rm'.level ≤ PRIORITY_HIGH →
      (rm'.mod = .delete → ∃ m ∈ rm'.matchList, m.ofFastPath = false) →
      ∀ f ∈ ((rfPorts o rf (some a.ctId) (some a.dpId)).filter fun e => e.eligible (some a.dpPort)).map
        fun e => e.flow (islRouteMod tr.dpId a b rm'), f.Tame := by
    intro rm' hlevel hdelete f hf
    obtain ⟨e, -, rfl⟩ := List.mem_map.mp hf
    have hisl : (islRouteMod tr.dpId a b rm').Tame :=
      ⟨hlevel, (by decide : (0 : Nat) ≠ NOVIFLOW_FP_TABLE), fun t ht => absurd ht (hislActions t), hdelete⟩
    exact hisl.flow e
  have hread := linkReadable_of_ok h
  unfold neighbourReads at hread
  unfold Translator.handleIslRouteMod at h
  cases hk : tr.kind with
  | default =>
    simp only [hk, defaultHandleIslRouteMod_ok hs tr hn hf (hread (by simp [hk])), Prod.mk.injEq] at h
    rw [← Except.ok.inj h.2]
    exact hdefault rm hrm.level hrm.delete
  | satellite =>
    by_cases hsent : r.remEthAddr ∈ tr.sentIslDl
    · simp only [hk, satelliteLoop, hsent, if_true, Prod.mk.injEq] at h
      rw [← Except.ok.inj h.2]
      simp
    · simp only [hk, satelliteLoop, hsent, if_false,
        defaultHandleIslRouteMod_ok hs tr hn hf (hread fun _ => hsent), List.mem_cons, true_or, if_true,
          Except.map, List.append_nil, Prod.mk.injEq] at h
      rw [← Except.ok.inj h.2]
      exact hdefault _ (RouteMod.level_le rfl (by decide)) fun _ => ⟨_, List.mem_singleton_self _, rfl⟩
  | noviFlow =>
    simp only [hk, noviFlowHandleIslRouteMod_ok tr hn hf (hread (by simp [hk])), Prod.mk.injEq] at h
    rw [← Except.ok.inj h.2]
    intro f hmem
    rcases List.mem_append.mp hmem with hmem | hmem
    · rw [mem_noviFlowSend hmem]
      exact ⟨RouteMod.level_le rfl (by decide), (by decide : NOVIFLOW_FIB_TABLE ≠ NOVIFLOW_FP_TABLE),
        fun t ht => absurd ht (hislActions t), hrm.delete⟩
    · rw [List.mem_singleton.mp hmem]
      refine ⟨RouteMod.level_le rfl (by decide), (by decide : (0 : Nat) ≠ NOVIFLOW_FP_TABLE), fun t ht => ?_,
        fun _ => ⟨_, List.mem_singleton_self _, rfl⟩⟩
      exact congrArg (fun a => [a]) (List.mem_singleton.mp ht).symm

include hs in
theorem islFlows_tame (hrm : rm.FromClient) (remotes : List RFISLEntry) (trs : Nat → Option Translator)
    (hl : LinkRows remotes) {y : Datapath × RouteMod} (hy : y ∈ islFlows o rf rm remotes trs) : y.2.Tame := by
  induction remotes generalizing trs with
  | nil => cases hy
  | cons r rest ih =>
    have hl' : LinkRows rest := fun q hq => hl q (List.mem_cons_of_mem _ hq)
    unfold islFlows at hy
    by_cases hst : r.getStatus = .rfislActive
    · obtain ⟨a, b, hn, hf⟩ := hl r List.mem_cons_self hst
      cases htr : trs a.dpId with
      | none => simp [hst, hn, htr] at hy
      | some tr =>
        simp only [hst, if_true, hn, htr, List.mem_append] at hy
        rcases hy with hy | hy
        · obtain ⟨-, rms, hrms, hmem⟩ := Datapath.mem_tag.mp hy
          exact handleIslRouteMod_tame hs tr hn hf hrm (Prod.ext rfl hrms) _ hmem
        · exact ih _ hl' hy
    · simp only [hst, if_false] at hy
      exact ih trs hl' hy

include hs in
theorem attributed_tame {s : Server} (hrf : s.rftable = rf) (hi : IslShaped s.isltable)
    {entry : RFEntry} {x : DpPort} {tr : Translator} (hx : entry.dp = some x) (hrm : rm.FromClient)
    {y : Datapath × RouteMod} (hy : y ∈ attributed cfg o s entry x tr rm) : y.2.Tame := by
  subst hrf
  have hrm' : (rm.setId x.dpId).FromClient := ⟨hrm.level, hrm.table, hrm.no_goto, hrm.controller, hrm.delete⟩
  unfold attributed at hy
  cases hm : rm.mod with
  | controller =>
    simp only [hm, Datapath.mem_tag] at hy
    obtain ⟨-, rms, hok, hmem⟩ := hy
    exact handleControllerRouteMod_tame hrm' hm hok _ hmem
  | add | delete =>
    have hne : (rm.setId x.dpId).mod ≠ .controller := by
      rw [show (rm.setId x.dpId).mod = rm.mod from rfl, hm]
      simp
    cases hok : tr.handleRouteMod o s.rftable s.isltable entry (rm.setId x.dpId) with
    | error e => simp [hm, hok] at hy
    | ok res =>
      obtain ⟨rm', rms⟩ := res
      obtain ⟨hnew, hlocal⟩ := handleRouteMod_tame hs hi tr hx hrm' hne hok
      simp only [hm, hok, List.mem_append, Datapath.mem_tag] at hy
      rcases hy with ⟨-, rms', heq, hmem⟩ | hy
      · rw [← Except.ok.inj heq] at hmem
        exact hlocal _ hmem
      · exact islFlows_tame hs hnew _ _ (remoteLinks_linkRows hi x) hy
  | addGroup | deleteGroup | unknown _ => simp [hm] at hy

end Translators

/-! ## What clients send -/

theorem IPAddress.toPrefixLen_le (a : IPAddress) : a.toPrefixLen ≤ 8 * a.version.length := by
  have hones : ∀ b k, IPAddress.leadingOnes b k ≤ k := by
    intro b k
    induction k with
    | zero => exact Nat.le_refl 0
    | succ k ih =>
      unfold IPAddress.leadingOnes
      split <;> omega
  have hcount : ∀ bs, IPAddress.countPrefix bs ≤ 8 * bs.length := by
    intro bs
    induction bs with
    | nil => exact Nat.le_refl 0
    | cons b rest ih =>
      have := hones b 8
      rw [IPAddress.countPrefix, List.length_cons]
      split <;> omega
  rw [← a.length_eq]
  exact hcount a.data

theorem sendToHw_fromClient (vmId : Nat) {mod : RouteModType} (hmod : mod = .add ∨ mod = .delete)
    (addr mask : IPAddress) (iface : Interface) (gateway : Mac) :
    (FlowTable.sendToHw vmId mod addr mask iface gateway).FromClient := by
  have hlen : mask.toPrefixLen ≤ 128 := mask.toPrefixLen_le.trans (by cases mask.version <;> decide)
  have hlevel : (PRIORITY_LOW + mask.toPrefixLen * PRIORITY_BAND) % 2 ^ 16 ≤ PRIORITY_HIGH := by
    refine (Nat.mod_le _ _).trans ?_
    unfold PRIORITY_LOW PRIORITY_BAND PRIORITY_HIGH
    omega
  by_cases hv : iface.vlan = 0
  all_goals
    simp only [FlowTable.sendToHw, hv, if_true, if_false]
    refine ⟨RouteMod.level_le rfl hlevel, (by decide : (0 : Nat) ≠ NOVIFLOW_FP_TABLE),
      fun t => ?_, fun hc => ?_, fun _ => ⟨.ip addr mask, List.mem_singleton_self _, rfl⟩⟩
    · simp [FlowTable.setIP, FlowTable.setEthernet, RouteMod.addAction, RouteMod.addMatch, RouteMod.addOption]
    · have : mod = .controller := hc
      rcases hmod with rfl | rfl <;> cases this

theorem controllerRouteMod_fromClient (vmId port vlan : Nat) (matchMac : Bool) (hwaddress : Mac)
    (matchIP : Bool) (ip : IPAddress) :
    (controllerRouteMod vmId port vlan matchMac hwaddress matchIP ip).FromClient ∧
      (controllerRouteMod vmId port vlan matchMac hwaddress matchIP ip).mod = .controller := by
  have hall : ∀ ms,
      (({ mod := .controller, id := vmId, vmPort := port, matchList := ms } : RouteMod).addOption
        (.priority PRIORITY_HIGH)).FromClient := fun ms =>
    ⟨RouteMod.level_le rfl (Nat.le_refl _), (by decide : (0 : Nat) ≠ NOVIFLOW_FP_TABLE),
      fun _ => List.not_mem_nil, fun _ => rfl, by rintro ⟨⟩⟩
  have hform : ∃ ms, controllerRouteMod vmId port vlan matchMac hwaddress matchIP ip =
      ({ mod := .controller, id := vmId, vmPort := port, matchList := ms } : RouteMod).addOption
        (.priority PRIORITY_HIGH) := by
    unfold controllerRouteMod
    cases ip.version <;> cases matchMac <;> cases matchIP <;> by_cases hv : vlan = 0 <;>
      simp only [hv, if_true, if_false, Bool.false_eq_true] <;> exact ⟨_, rfl⟩
  obtain ⟨ms, hms⟩ := hform
  rw [hms]
  exact ⟨hall ms, rfl⟩

theorem RouteMod.FromClient.addMatch {rm : RouteMod} (h : rm.FromClient ∧ rm.mod = .controller) (m : Match) :
    (rm.addMatch m).FromClient ∧ (rm.addMatch m).mod = .controller :=
  ⟨⟨h.1.level, h.1.table, h.1.no_goto, h.1.controller, fun hd => by cases h.2.symm.trans hd⟩, h.2⟩

theorem interfaceToControllerRouteMods_fromClient (vmId : Nat) (iface : Interface) :
    ∀ rm ∈ interfaceToControllerRouteMods vmId iface, rm.FromClient := by
  intro rm hrm
  obtain ⟨ip, -, hrm⟩ := List.mem_flatMap.mp hrm
  have hnew : ∀ matchMac matchIP,
    (controllerRouteMod vmId iface.port iface.vlan matchMac iface.hwaddress matchIP
      ip).FromClient ∧ _ = RouteModType.controller := fun matchMac matchIP =>
    controllerRouteMod_fromClient vmId iface.port iface.vlan matchMac iface.hwaddress matchIP ip
  have hadd := fun {rm : RouteMod} h m => @RouteMod.FromClient.addMatch rm h m
  have hlow : ∀ {rm : RouteMod}, rm.FromClient ∧ rm.mod = .controller →
      (rm.addOption (.priority (PRIORITY_LOW + 1))).FromClient := by
    intro rm h
    refine ⟨?_, h.1.table, h.1.no_goto, h.1.controller, h.1.delete⟩
    simp [RouteMod.level, RouteMod.priority, RouteMod.addOption, PRIORITY_LOW, PRIORITY_HIGH]
  unfold addressRouteMods at hrm
  cases hv : ip.version with
  | ipv4 =>
    simp only [hv, List.mem_append, List.mem_cons, List.not_mem_nil, or_false] at hrm
    rcases hrm with (rfl | rfl) | rfl | rfl | rfl | rfl
    · exact (hadd (hnew true true) _).1
    · exact (hadd (hnew true false) _).1
    · exact (hadd (hadd (hnew true true) _) _).1
    · exact (hadd (hadd (hnew true true) _) _).1
    · exact (hadd (hadd (hnew false false) _) _).1
    · exact (hadd (hadd (hnew false false) _) _).1
  | ipv6 =>
    simp only [hv, List.mem_append, List.mem_cons, List.not_mem_nil, or_false] at hrm
    rcases hrm with (rfl | rfl) | rfl | rfl | rfl | rfl
    · exact hlow (hadd (hadd (hnew false false) _) _)
    · exact (hadd (hadd (hnew true true) _) _).1
    · exact (hadd (hadd (hnew true true) _) _).1
    · exact (hadd (hadd (hnew true true) _) _).1
    · exact (hadd (hadd (hnew false false) _) _).1
    · exact (hadd (hadd (hnew false false) _) _).1

end RouteFlow
