import RouteFlow.Lib.Naming
import RouteFlow.Lib.Run
import RouteFlow.Translator

/-!
# Groups of the Corsa translator

`CorsaMultitableRouteModTranslator.handle_route_mod` puts the actions of a route into a group and lets the
flow refer to it. Groups are kept under the destination address of the actions.
-/

namespace RouteFlow

open Store Run Naming

/-! ## CorsaMultitableRouteModTranslator -/

def CORSA_FIB_TABLE : Nat := 6

/-- `CorsaMultitableRouteModTranslator`, with the groups that it has made. -/
structure Corsa where
  dpId : Nat
  lastGroupid : Nat := CONTROLLER_GROUP
  actionsToGroupid : Option Mac → Option Nat := fun _ => none

namespace Corsa

/-- The hardware sets a VLAN where the client swaps one. -/
def groupAction : Action → Action
  | .swapVlanId tag => .setVlanId tag
  | a => a

/-- The value of the last `SET_ETH_DST`. -/
def dstEth (actions : List Action) : Option Mac :=
  (actions.filterMap fun | .setEthDst mac => some mac | _ => none).getLast?

/-- The first active port but the output port is enough, as the flow does not name it. -/
def sendRmWithMatches (tr : Corsa) (rm : RouteMod) (outPort : Option Nat) (entries : List PortEntry) :
    Corsa × List RouteMod :=
  if entries.any fun e => e.eligible outPort then
    let dst := dstEth rm.actions
    match tr.actionsToGroupid dst with
    | some groupid => (tr, [rm.setActions [.group groupid]])
    | none =>
      let newGroupid := tr.lastGroupid + 1
      let groupRm : RouteMod :=
        { mod := .addGroup, id := tr.dpId, group := newGroupid, actions := rm.actions.map groupAction }
      ({ tr with
          lastGroupid := newGroupid
          actionsToGroupid := Function.update tr.actionsToGroupid dst newGroupid },
        [groupRm, rm.setActions [.group newGroupid]])
  else (tr, [])

def handleRouteMod (o : Order) (rftable : RFTable) (isltable : RFISLTable) (tr : Corsa) (entry : RFEntry)
    (rm : RouteMod) : Corsa × Except PyErr (List RouteMod) :=
  let entries := rfPorts o rftable entry.ctId entry.dpId ++ islPorts o isltable entry.ctId entry.dpId
  match Action.OUTPUT entry.dpPort with
  | .error e => (tr, .error e)
  | .ok output =>
    let (tr, rms) := tr.sendRmWithMatches ((rm.addAction output).setTable CORSA_FIB_TABLE)
      entry.dpPort entries
    (tr, .ok rms)

/-! ## Calls -/

/-- A route that is passed to the translator, with the tables as they are then. The entry has a datapath
port. -/
structure Call where
  order : Order
  rftable : RFTable
  isltable : RFISLTable
  entry : RFEntry
  out : Nat
  entry_out : entry.dpPort = some out
  rm : RouteMod
  add : rm.mod = .add

namespace Call

/-- The action list computed for the route: its own, with its VLAN set, and the output to its port. -/
def actions (c : Call) : List Action := c.rm.actions.map groupAction ++ [.output c.out]

/-- Some other port of the datapath is active, so that a flow is made. -/
def sends (c : Call) : Bool :=
  (rfPorts c.order c.rftable c.entry.ctId c.entry.dpId ++
    islPorts c.order c.isltable c.entry.ctId c.entry.dpId).any fun e => e.eligible c.entry.dpPort

def dst (c : Call) : Option Mac := dstEth c.rm.actions

end Call

/-- The translator, with all that it has emitted and the call that each RouteMod was emitted by. -/
structure Session where
  tr : Corsa
  log : List (Call × RouteMod)

/-- What was sent is kept, also if the call raises. -/
def Session.step (s : Session) (c : Call) : Session :=
  match handleRouteMod c.order c.rftable c.isltable s.tr c.entry c.rm with
  | (tr, .ok rms) => ⟨tr, s.log ++ rms.map fun f => (c, f)⟩
  | (tr, .error _) => ⟨tr, s.log⟩

def session (dpId : Nat) : Session := ⟨{ dpId := dpId }, []⟩

/-! ## Groups -/

/-- The group numbers as names that were given out. -/
def names (tr : Corsa) : Names (Option Mac) := ⟨tr.lastGroupid, tr.actionsToGroupid⟩

/-- The groups of the log. -/
def groups (log : List (Call × RouteMod)) : List (Nat × List Action) :=
  log.filterMap fun (_, f) => if f.mod = .addGroup then some (f.group, f.actions) else none

/-- The flow of a call, which refers to a group. -/
def flow (c : Call) (groupid : Nat) : RouteMod :=
  ((c.rm.addAction (.output c.out)).setTable CORSA_FIB_TABLE).setActions [.group groupid]

theorem dstEth_output (actions : List Action) (port : Nat) :
    dstEth (actions ++ [.output port]) = dstEth actions := by
  simp [dstEth, List.filterMap_append]

theorem step_sends (s : Session) {c : Call} (h : c.sends = true) :
    names (s.step c).tr = (names s.tr).after c.dst ∧
      ∃ n, (names (s.step c).tr).number c.dst = some n ∧ (s.step c).log =
        s.log ++ ((names s.tr).defines c.dst c.actions).map (fun d =>
          (c, { mod := .addGroup, id := s.tr.dpId, group := d.1, actions := d.2 })) ++ [(c, flow c n)] := by
  have hmap : ((c.rm.addAction (.output c.out)).setTable CORSA_FIB_TABLE).actions.map groupAction =
    c.actions := by
    simp [RouteMod.addAction, RouteMod.setTable, Call.actions, groupAction]
  have hdst : dstEth ((c.rm.addAction (.output c.out)).setTable CORSA_FIB_TABLE).actions = c.dst :=
    dstEth_output c.rm.actions c.out
  have hany := h
  unfold Call.sends at hany
  rw [c.entry_out] at hany
  unfold Session.step handleRouteMod
  simp only [c.entry_out, Action.OUTPUT, sendRmWithMatches, hany, if_true, hdst, hmap]
  cases hg : s.tr.actionsToGroupid c.dst with
  | some n =>
    exact ⟨by simp [names, Names.after, hg], n, by simp [names, hg], by simp [names, Names.defines, hg, flow]⟩
  | none =>
    exact ⟨by simp [names, Names.after, hg], s.tr.lastGroupid + 1, by simp [names],
      by simp [names, Names.defines, hg, flow]⟩

theorem step_silent (s : Session) {c : Call} (h : ¬ c.sends = true) : s.step c = s := by
  have hany := h
  unfold Call.sends at hany
  rw [c.entry_out] at hany
  unfold Session.step handleRouteMod
  simp only [c.entry_out, Action.OUTPUT, sendRmWithMatches, hany]
  simp

/-! ## The log -/

/-- The calls that reach the group table, with the address that is the key. -/
def asked (calls : List Call) : List (Option Mac × List Action) :=
  (calls.filter fun c => c.sends).map fun c => (c.dst, c.actions)

theorem mem_asked {calls : List Call} {k : Option Mac} {a : List Action} :
    (k, a) ∈ asked calls ↔ ∃ c ∈ calls, c.sends = true ∧ c.dst = k ∧ c.actions = a := by
  simp [asked, and_assoc]

theorem mem_groups {log : List (Call × RouteMod)} {n : Nat} {a : List Action} :
    (n, a) ∈ groups log ↔ ∃ y ∈ log, y.2.mod = .addGroup ∧ y.2.group = n ∧ y.2.actions = a := by
  simp only [groups, List.mem_filterMap]
  constructor
  · rintro ⟨y, hy, h⟩
    split at h
    · rename_i hm
      obtain ⟨rfl, rfl⟩ := Prod.mk.inj (Option.some.inj h)
      exact ⟨y, hy, hm, rfl, rfl⟩
    · cases h
  · rintro ⟨y, hy, hm, rfl, rfl⟩
    exact ⟨y, hy, by simp [hm]⟩

/-- What holds of the log after the calls. -/
structure Logged (calls : List Call) (s : Session) : Prop where
  consistent : Consistent (asked calls) (names s.tr) (groups s.log)
  flows : ∀ c f, (c, f) ∈ s.log → f.mod = .add → (c ∈ calls ∧ c.sends = true) ∧
    ∃ n, (names s.tr).number c.dst = some n ∧ f.actions = [.group n]
  made : ∀ c ∈ calls, c.sends = true → ∃ n, (names s.tr).number c.dst = some n ∧ (c, flow c n) ∈ s.log
  earlier : Throughout (fun before y => y.2.mod = .add → ∃ n, y.2.actions = [.group n] ∧
    ∃ a, (n, a) ∈ groups before) s.log

theorem Logged.init (dpId : Nat) : Logged [] (session dpId) where
  consistent := consistent_start CONTROLLER_GROUP
  flows := by simp [session]
  made := by simp
  earlier := by
    intro before y after h
    simp [session] at h

theorem Logged.sends {calls : List Call} {s : Session} (hl : Logged calls s) {c : Call}
    (hc : c.sends = true) :
    Logged (calls ++ [c]) (s.step c) := by
  obtain ⟨hnames, n, hn, hlog⟩ := step_sends s hc
  have hmod : (flow c n).mod = .add := c.add
  have hasked : asked (calls ++ [c]) = asked calls ++ [(c.dst, c.actions)] := by simp [asked, hc]
  have hgroups : groups (s.step c).log = groups s.log ++ (names s.tr).defines c.dst c.actions := by
    rw [hlog]
    simp [groups, hmod]
  have hconsistent : Consistent (asked (calls ++ [c])) (names (s.step c).tr) (groups (s.step c).log) := by
    rw [hasked, hnames, hgroups]
    exact hl.consistent.ask c.dst c.actions
  have hkeep : ∀ d m, (names s.tr).number d = some m → (names (s.step c).tr).number d = some m := by
    intro d m hd
    rw [hnames]
    exact Names.after_keeps hd c.dst
  refine ⟨hconsistent, ?_, ?_, ?_⟩
  · intro d f hd hf
    rw [hlog, List.mem_append, List.mem_append] at hd
    rcases hd with (hd | hd) | hd
    · obtain ⟨⟨hmem, hsend⟩, m, hm, hact⟩ := hl.flows d f hd hf
      exact ⟨⟨List.mem_append_left _ hmem, hsend⟩, m, hkeep _ m hm, hact⟩
    · obtain ⟨x, -, hx⟩ := List.mem_map.mp hd
      obtain ⟨rfl, rfl⟩ := Prod.mk.inj hx
      cases hf
    · obtain ⟨rfl, rfl⟩ := Prod.mk.inj (List.mem_singleton.mp hd)
      exact ⟨⟨by simp, hc⟩, n, hn, rfl⟩
  · intro d hd hsend
    rw [hlog]
    rcases List.mem_append.mp hd with hd | hd
    · obtain ⟨m, hm, hmem⟩ := hl.made d hd hsend
      exact ⟨m, hkeep _ m hm, by simp [hmem]⟩
    · obtain rfl := List.mem_singleton.mp hd
      exact ⟨n, hn, by simp⟩
  · -- The group of the flow is in the log already, or is the one that has just been put there.
    rw [hlog]
    refine (hl.earlier.append fun y hy before hadd => ?_).push fun _ => ⟨n, rfl, ?_⟩
    · obtain ⟨x, -, rfl⟩ := List.mem_map.mp hy
      cases hadd
    · obtain ⟨a, ha⟩ := hconsistent.defined c.dst n hn
      refine ⟨a, ?_⟩
      rw [hlog] at ha
      simpa [groups, hmod] using ha

theorem Logged.silent {calls : List Call} {s : Session} (hl : Logged calls s) {c : Call}
    (hc : ¬ c.sends = true) :
    Logged (calls ++ [c]) (s.step c) := by
  rw [step_silent s hc]
  have hasked : asked (calls ++ [c]) = asked calls := by simp [asked, hc]
  refine ⟨by rw [hasked]; exact hl.consistent, ?_, ?_, hl.earlier⟩
  · intro d f hd hf
    obtain ⟨⟨hmem, hsend⟩, hn⟩ := hl.flows d f hd hf
    exact ⟨⟨List.mem_append_left _ hmem, hsend⟩, hn⟩
  · intro d hd hsend
    rcases List.mem_append.mp hd with hd | hd
    · exact hl.made d hd hsend
    · rw [List.mem_singleton.mp hd] at hsend
      exact absurd hsend hc

theorem Logged.step {calls : List Call} {s : Session} (hl : Logged calls s) (c : Call) :
    Logged (calls ++ [c]) (s.step c) := by
  by_cases hc : c.sends = true
  · exact hl.sends hc
  · exact hl.silent hc

theorem run_logged (dpId : Nat) (calls : List Call) : Logged calls (run Session.step (session dpId) calls) :=
  history_invariant (I := Logged) (Logged.init dpId)
    (fun _ _ c _ hl => hl.step c) calls (along_true _ _ calls)

/-! ## What the groups stand for -/

/-- Each flow refers to a group that was added before it and has the actions of the flow's own route, and
two routes share a group only if they have the same actions. -/
structure Indirect (log : List (Call × RouteMod)) : Prop where
  defined : ∀ before c f after, log = before ++ (c, f) :: after → f.mod = .add →
    ∃ n, f.actions = [.group n] ∧ ∃ y ∈ before, y.2.mod = .addGroup ∧ y.2.group = n
  actions : ∀ c f n, (c, f) ∈ log → f.mod = .add → f.actions = [.group n] →
    ∀ y ∈ log, y.2.mod = .addGroup → y.2.group = n → y.2.actions = c.actions
  shared : ∀ c f c' f', (c, f) ∈ log → f.mod = .add → (c', f') ∈ log → f'.mod = .add →
    f.actions = f'.actions → c.actions = c'.actions

/-- The groups stand for the actions of all routes exactly if routes to the same destination address have
the same actions throughout, among those that make a flow. -/
theorem groups_indirect_iff (dpId : Nat) (calls : List Call) :
    Indirect (run Session.step (session dpId) calls).log ↔
      ∀ c ∈ calls, ∀ c' ∈ calls, c.sends = true → c'.sends = true → c.dst = c'.dst →
      c.actions = c'.actions := by
  have hl := run_logged dpId calls
  generalize run Session.step (session dpId) calls = s at hl ⊢
  constructor
  · intro hind c hc c' hc' hs hs' hdst
    obtain ⟨n, hn, hmem⟩ := hl.made c hc hs
    obtain ⟨n', hn', hmem'⟩ := hl.made c' hc' hs'
    obtain rfl : n = n' := by
      rw [hdst, hn'] at hn
      exact (Option.some.inj hn).symm
    exact hind.shared c _ c' _ hmem c.add hmem' c'.add rfl
  · intro hkey
    have hdecides : ∀ k a b, (k, a) ∈ asked calls → (k, b) ∈ asked calls → a = b := by
      intro k a b ha hb
      obtain ⟨c, hc, hs, rfl, rfl⟩ := mem_asked.mp ha
      obtain ⟨c', hc', hs', hdst, rfl⟩ := mem_asked.mp hb
      exact hkey c hc c' hc' hs hs' hdst.symm
    have hstands := hl.consistent.stands_iff.mpr hdecides
    refine ⟨?_, ?_, ?_⟩
    · intro before c f after hlog hadd
      obtain ⟨n, hact, a, ha⟩ := hl.earlier before (c, f) after hlog hadd
      obtain ⟨y, hy, hm, hg, -⟩ := mem_groups.mp ha
      exact ⟨n, hact, y, hy, hm, hg⟩
    · intro c f n hmem hadd hact y hy hm hg
      obtain ⟨⟨hc, hs⟩, m, hnum, hact'⟩ := hl.flows c f hmem hadd
      obtain rfl : n = m := by simpa [hact] using hact'
      exact hstands c.dst c.actions n y.2.actions (mem_asked.mpr ⟨c, hc, hs, rfl, rfl⟩) hnum
        (mem_groups.mpr ⟨y, hy, hm, hg, rfl⟩)
    · intro c f c' f' hmem hadd hmem' hadd' hsame
      obtain ⟨⟨hc, hs⟩, m, hnum, hact⟩ := hl.flows c f hmem hadd
      obtain ⟨⟨hc', hs'⟩, m', hnum', hact'⟩ := hl.flows c' f' hmem' hadd'
      obtain rfl : m = m' := by
        rw [hact, hact'] at hsame
        simpa using hsame
      exact hkey c hc c' hc' hs hs' (hl.consistent.injective _ _ m hnum hnum')

/-- Datapath 5 has an active port 3. -/
def onePort : RFTable := (memoryTable RFEntry).add
  { vmId := some 1, vmPort := some 1, ctId := some 0, dpId := some 5, dpPort := some 3, vsId := some 9,
    vsPort := some 1, ethAddr := some 7 }

/-- A route to the neighbour 0x31 that leaves on another port of datapath 5. -/
def viaPort (out : Nat) : Call where
  order := .insertion
  rftable := onePort
  isltable := memoryTable RFISLEntry
  entry := { vmId := some 1, vmPort := some 2, ctId := some 0, dpId := some 5, dpPort := some out }
  out := out
  entry_out := rfl
  rm := { mod := .add, id := 5, actions := [.setEthSrc 0x11, .setEthDst 0x31] }
  add := rfl

/-- Two routes to one neighbour over the ports 1 and 2: the second one leaves on port 1. -/
theorem group_shared_astray :
    let log := (run Session.step (session 5) [viaPort 1, viaPort 2]).log
    log.map (fun y => y.2.actions) =
        [[.setEthSrc 0x11, .setEthDst 0x31, .output 1], [.group 2], [.group 2]] ∧
      (viaPort 2).actions = [.setEthSrc 0x11, .setEthDst 0x31, .output 2] ∧ ¬ Indirect log := by
  intro log
  have hlog : log = [(viaPort 1, { mod := .addGroup, id := 5, group := 2, actions := (viaPort 1).actions }),
      (viaPort 1, flow (viaPort 1) 2), (viaPort 2, flow (viaPort 2) 2)] := by rfl
  refine ⟨by rw [hlog]; rfl, rfl, fun hind => ?_⟩
  have hsame := hind.actions (viaPort 2) (flow (viaPort 2) 2) 2 (by rw [hlog]; simp) rfl rfl _
    (by rw [hlog]; exact List.mem_cons_self) rfl rfl
  exact absurd hsame (by decide)

end Corsa

end RouteFlow
