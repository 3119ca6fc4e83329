import RouteFlow.SentOnce
import RouteFlow.Withdrawal

/-!
# What a client announces

The calls of `sendToHw` add and delete prefixes. At any time, those that were added and not deleted are
the routes of the table that do not wait for their gateway, the one that is about to be taken back, and
the neighbours.
-/

namespace RouteFlow

open FlowTable

/-! ## Calls -/

/-- The call is for this prefix. -/
def HwCall.IsFor (r : Prefix) (c : HwCall) : Prop := c.addr = r.addr ∧ c.mask = r.netmask

theorem HwCall.IsFor.unique {c : HwCall} {r q : Prefix} (hr : c.IsFor r) (hq : c.IsFor q) : r = q :=
  Prefix.ext_match (hr.1.symm.trans hq.1) (hr.2.symm.trans hq.2)

/-- The prefix was added through the port, and not deleted since. -/
def Announced (r : Prefix) (port : Nat) (calls : List HwCall) : Prop :=
  Run.Since (fun c => c.mod = .add ∧ c.IsFor r ∧ c.localIface.port = port)
    (fun c => c.mod = .delete ∧ c.IsFor r) calls

theorem announced_snoc {c : HwCall} {q : Prefix} (hq : c.IsFor q) (r : Prefix) (port : Nat)
    (calls : List HwCall) :
    Announced r port (calls ++ [c]) ↔ (c.mod = .add ∧ r = q ∧ c.localIface.port = port) ∨
      (Announced r port calls ∧ ¬(c.mod = .delete ∧ r = q)) := by
  have hfor : c.IsFor r ↔ r = q := by
    constructor
    · exact fun hr => hr.unique hq
    · rintro rfl
      exact hq
  unfold Announced
  rw [Run.since_snoc, hfor]

/-- The call is for a prefix that is announced through no other port. -/
def Sided (before : List HwCall) (c : HwCall) : Prop :=
  ∃ r, c.IsFor r ∧ (c.mod = .add ∨ c.mod = .delete) ∧ ∀ port, Announced r port before →
    port = c.localIface.port

/-- The key that a route of the prefix has in `routeTable`. -/
def Prefix.key (inet : Inet) (r : Prefix) : Text := Route.key inet ⟨r.addr, r.netmask, r.addr⟩

theorem Inet.Textual.prefixKey_inj {inet : Inet} (hi : inet.Textual) {r q : Prefix} :
    r.key inet = q.key inet ↔ r = q := by
  constructor
  · intro h
    obtain ⟨haddr, hmask⟩ := hi.key_inj.mp h
    exact Prefix.ext_match haddr hmask
  · rintro rfl
    rfl

/-- The entry is for the prefix. -/
def RouteEntry.IsFor (r : Prefix) (re : RouteEntry) : Prop := re.address = r.addr ∧ re.netmask = r.netmask

theorem RouteEntry.IsFor.toString_eq {re : RouteEntry} {r : Prefix} (h : re.IsFor r) (inet : Inet) :
    re.toString inet = r.key inet := by
  unfold RouteEntry.toString Prefix.key Route.key
  rw [h.1, h.2]

theorem updateHostTable_calls (vmId : Nat) (inet : Inet) (ft : FlowTable) (he : HostEntry) :
    ∃ c, (ft.updateHostTable vmId inet he).calls = ft.calls ++ [c] ∧ c.IsFor (.host he.address) ∧
      c.mod = .add ∧ c.localIface = he.interface := by
  refine ⟨_, ResolverThread.handOver_calls ft _, ⟨rfl, ?_⟩, rfl, rfl⟩
  cases hv : he.address.version <;>
    simp [Prefix.host, Prefix.netmask, hv, IPVersion.length, FULL_IPV4_PREFIX, FULL_IPV6_PREFIX]

theorem updateHostTable_hostTable (vmId : Nat) (inet : Inet) (ft : FlowTable) (he : HostEntry) :
    (ft.updateHostTable vmId inet he).hostTable = ft.hostTable.insert (he.address.toText inet) he := by
  unfold updateHostTable
  dsimp only
  rw [ResolverThread.handOver_hostTable]

/-! ## What the kernel says -/

/-- `ports` has the ports of the neighbours. -/
def IsHost (ports : IPAddress → Option Nat) (r : Prefix) : Prop := ∃ a, r = .host a ∧ (ports a).isSome

/-- A route of a prefix that is not a neighbour, through an interface that is up. -/
def RouteEntry.Regular (ports : IPAddress → Option Nat) (re : RouteEntry) : Prop :=
  re.interface.active = true ∧ ∃ r, re.IsFor r ∧ ¬IsHost ports r

/-- The route that the resolver is about to take back. -/
def Place.leaving : Place → Option RouteEntry
  | .send .delete re => some re
  | _ => none

namespace ResolverThread

variable {vmId : Nat} {inet : Inet} {ports : IPAddress → Option Nat}

/-- Interfaces are up, neighbours stay where they are, and a delete names the route that is stored. -/
def Kernel (inet : Inet) (ports : IPAddress → Option Nat) (s : ResolverThread) : Act → Prop
  | .route pr => pr.rentry.Regular ports
  | .host he => he.hwaddress ≠ MAC_ADDR_NONE ∧ he.interface.active = true ∧
    ports he.address = some he.interface.port
  | .look => s.place = .drain → ∀ pr ∈ s.ft.pendingRoutes.head?, pr.type = .delete →
      ∀ e ∈ s.ft.routeTable.lookup (pr.rentry.toString inet),
        e.gateway = pr.rentry.gateway ∧ e.interface.port = pr.rentry.interface.port

theorem Kernel.proper {s : ResolverThread} : ∀ {a : Act}, Kernel inet ports s a → Proper inet s a
  | .route _, _ => trivial
  | .host _, h => h.1
  | .look, h => fun hplace pr hpr hdel e he => (h hplace pr hpr hdel e he).1

/-! ## What a look can do -/

/-- What the next invariant needs to know of a look. -/
inductive Looked (inet : Inet) (s s' : ResolverThread) : Prop
  | moved (table : s'.ft.routeTable = s.ft.routeTable) (calls : s'.ft.calls = s.ft.calls)
      (waits : ∀ k, Waits inet s' k ↔ Waits inet s k) (leaving : s'.place.leaving = s.place.leaving)
  | inserted {re : RouteEntry} (mem : ⟨.add, re⟩ ∈ s.ft.pendingRoutes)
      (new : re.toString inet ∉ s.ft.routeTable)
      (table : s'.ft.routeTable = s.ft.routeTable.insert (re.toString inet) re)
      (calls : s'.ft.calls = s.ft.calls)
      (waits : ∀ k, Waits inet s' k ↔ Waits inet s k ∨ k = re.toString inet)
      (none_left : s.place.leaving = none) (leaving : s'.place.leaving = none)
  | erased {re e : RouteEntry} (mem : ⟨.delete, re⟩ ∈ s.ft.pendingRoutes)
      (stored : s.ft.routeTable.lookup (re.toString inet) = some e)
      (port : e.interface.port = re.interface.port)
      (known : ¬Waits inet s (re.toString inet) → Known inet s.ft re.gateway)
      (table : s'.ft.routeTable = s.ft.routeTable.erase (re.toString inet)) (calls : s'.ft.calls = s.ft.calls)
      (waits : ∀ k, Waits inet s' k ↔ Waits inet s k ∧ k ≠ re.toString inet)
      (none_left : s.place.leaving = none) (leaving : s'.place.leaving = some re)
  | sent {re : RouteEntry} {mac : Mac} (stored : s.ft.routeTable.lookup (re.toString inet) = some re)
      (waited : Waits inet s (re.toString inet)) (table : s'.ft.routeTable = s.ft.routeTable)
      (calls : s'.ft.calls = s.ft.calls ++ [⟨.add, re.address, re.netmask, re.interface, mac⟩])
      (waits : ∀ k, Waits inet s' k ↔ Waits inet s k ∧ k ≠ re.toString inet)
      (none_left : s.place.leaving = none) (leaving : s'.place.leaving = none)
  | tookBack {re : RouteEntry} {mac : Mac} (left : s.place.leaving = some re)
      (gone : re.toString inet ∉ s.ft.routeTable)
      (table : s'.ft.routeTable = s.ft.routeTable)
      (calls : s'.ft.calls = s.ft.calls ++ [⟨.delete, re.address, re.netmask, re.interface, mac⟩])
      (waits : ∀ k, Waits inet s' k ↔ Waits inet s k) (leaving : s'.place.leaving = none)
  | gaveUp {re : RouteEntry} (left : s.place.leaving = some re) (unknown : ¬Known inet s.ft re.gateway)
      (table : s'.ft.routeTable = s.ft.routeTable) (calls : s'.ft.calls = s.ft.calls)
      (waits : ∀ k, Waits inet s' k ↔ Waits inet s k) (leaving : s'.place.leaving = none)

theorem waits_drain {s : ResolverThread} (hplace : s.place = .drain) (k : Text) :
    Waits inet s k ↔ k ∈ s.ft.unresolvedRoutes := by
  unfold Waits
  rw [hplace]
  simp [Place.held, Place.swept]

theorem take_looked {s : ResolverThread} {pr : PendingRoute} {rest : List PendingRoute} (hp : Placed inet s)
    (h : Sound inet s) (hk : Kernel inet ports s .look) (hplace : s.place = .drain)
    (hpending : s.ft.pendingRoutes = pr :: rest) :
    Looked inet s (take inet { s with ft := { s.ft with pendingRoutes := rest } } pr) := by
  have hleaving : s.place.leaving = none := by rw [hplace]; rfl
  have hsame : Looked inet s { s with ft := { s.ft with pendingRoutes := rest } } :=
    .moved rfl rfl (fun _ => Iff.rfl) rfl
  have hmem : pr ∈ s.ft.pendingRoutes := by simp [hpending]
  obtain ⟨type, re⟩ := pr
  unfold take
  dsimp only
  cases type with
  | add =>
    dsimp only
    split
    · exact hsame
    · rename_i hnew
      refine .inserted hmem hnew rfl rfl (fun k => ?_) hleaving rfl
      rw [waits_drain hplace]
      simp [Waits, Place.held, Place.swept, or_comm, eq_comm]
  | delete =>
    dsimp only
    split
    · rename_i hin
      obtain ⟨e, he⟩ := exists_lookup hin
      obtain ⟨hgateway, hport⟩ := hk hplace ⟨.delete, re⟩ (by simp [hpending]) rfl e he
      refine .erased hmem he hport (fun hw => ?_) rfl rfl (fun k => ?_) hleaving rfl
      · rw [← hgateway]
        exact ((h.stands _).sent e he hw).2
      · rw [waits_drain hplace]
        simp [Waits, Place.held, Place.swept, hp.listed.nodup.mem_erase_iff, and_comm]
    · exact hsame
  | controller | addGroup | deleteGroup | unknown => exact hsame

theorem sent_looked {s s' : ResolverThread} {re : RouteEntry} (hknown : Known inet s.ft re.gateway)
    (hstored : s.ft.routeTable.lookup (re.toString inet) = some re)
    (hwaited : Waits inet s (re.toString inet)) (hft : s'.ft = s.ft.sendRouteToHw vmId inet .add re)
    (hwaits : ∀ k, Waits inet s' k ↔ Waits inet s k ∧ k ≠ re.toString inet) (hleft : s.place.leaving = none)
    (hleaving : s'.place.leaving = none) : Looked inet s s' := by
  have htable := (@sendRouteToHw_sameRoutes inet vmId s.ft .add re).table
  refine @Looked.sent _ _ _ re (s.ft.findHost inet re.gateway) hstored hwaited (by rw [hft, htable]) ?_
    hwaits hleft hleaving
  rw [hft, sendRouteToHw_known hknown, handOver_calls]

theorem look_looked {s : ResolverThread} (hp : Placed inet s) (h : Sound inet s)
    (hk : Kernel inet ports s .look) :
    Looked inet s (s.look vmId inet) := by
  cases hplace : s.place with
  | drain =>
    cases hpending : s.ft.pendingRoutes with
    | nil =>
      rw [look_drain_nil hplace hpending]
      refine .moved rfl rfl (fun k => ?_) (by rw [hplace]; rfl)
      rw [waits_drain hplace]
      simp [Waits, Place.held, Place.swept]
    | cons pr rest =>
      rw [look_drain_cons hplace hpending]
      exact take_looked hp h hk hplace hpending
  | check re =>
    rw [look_check_eq hplace]
    split
    · refine .moved rfl rfl (fun k => ?_) (by rw [hplace]; rfl)
      unfold Waits
      rw [hplace, mem_insertKey]
      simp [Place.held, Place.swept, eq_comm]
    · refine .moved rfl rfl (fun k => ?_) (by rw [hplace]; rfl)
      unfold Waits
      rw [hplace]
      rfl
  | send mod re =>
    have hsame := @sendRouteToHw_sameRoutes inet vmId s.ft mod re
    have hunresolved : ∀ k, Waits inet
      { s.noting .route (·.sendRouteToHw vmId inet mod re) with place := .drain } k ↔
        k ∈ s.ft.unresolvedRoutes := by
      intro k
      rw [waits_drain rfl, ← hsame.unresolved]
      rfl
    rw [look_send_eq hplace]
    cases mod with
    | add =>
      obtain ⟨hlookup, hno⟩ := hp.at_place hplace
      refine sent_looked (h.assured_at hplace) hlookup (Or.inl (by rw [hplace]; rfl)) rfl (fun k => ?_)
        (by rw [hplace]; rfl) rfl
      rw [hunresolved]
      unfold Waits
      rw [hplace]
      simp only [Place.held, Place.swept, Option.some.injEq, List.not_mem_nil, not_false_eq_true, and_true]
      constructor
      · intro hk
        exact ⟨Or.inr hk, by rintro rfl; exact hno hk⟩
      · rintro ⟨rfl | hk, hne⟩
        · exact absurd rfl hne
        · exact hk
    | delete =>
      have hgone : re.toString inet ∉ s.ft.routeTable := hp.at_place hplace
      have hwaits : ∀ k,
          Waits inet { s.noting .route (·.sendRouteToHw vmId inet .delete re) with place := .drain } k ↔
            Waits inet s k := by
        intro k
        rw [hunresolved]
        unfold Waits
        rw [hplace]
        simp [Place.held, Place.swept]
      have hleft : s.place.leaving = some re := by rw [hplace]; rfl
      by_cases hknown : Known inet s.ft re.gateway
      · refine @Looked.tookBack _ _ _ re (s.ft.findHost inet re.gateway) hleft hgone hsame.table ?_ hwaits rfl
        show (s.ft.sendRouteToHw vmId inet .delete re).calls = _
        rw [sendRouteToHw_known hknown, handOver_calls]
      · refine .gaveUp hleft hknown hsame.table ?_ hwaits rfl
        show (s.ft.sendRouteToHw vmId inet .delete re).calls = _
        rw [sendRouteToHw_unknown (not_not.mp hknown)]
    | controller | addGroup | deleteGroup | unknown => exact (hp.at_place hplace).elim
  | sweep todo resolved =>
    cases todo with
    | nil =>
      rw [look_sweep_nil hplace]
      refine .moved rfl rfl (fun k => ?_) (by rw [hplace]; rfl)
      unfold Waits
      rw [hplace]
      dsimp only
      rw [hp.listed.nodup.mem_sdiff_iff]
      simp [Place.held, Place.swept]
    | cons key todo =>
      obtain ⟨-, htodo⟩ := hp.at_place hplace
      have hmem := hp.listed.mem_table key (htodo key List.mem_cons_self)
      obtain ⟨e, he⟩ := exists_lookup hmem
      rw [look_sweep_cons hplace hmem he]
      refine .moved rfl rfl (fun k => ?_) ?_
      · unfold Waits
        rw [hplace]
        dsimp only
        split <;> rfl
      · rw [hplace]
        dsimp only
        split <;> rfl
  | resend key re todo resolved =>
    obtain ⟨hlookup, hnodup, htodo⟩ := hp.at_place hplace
    have hsame := @sendRouteToHw_sameRoutes inet vmId s.ft .add re
    have hkey : re.toString inet = key := hp.keyed key re hlookup
    have hfresh : key ∉ resolved :=
      fun hin => (List.nodup_append.mp hnodup).2.2 key hin key List.mem_cons_self rfl
    subst hkey
    rw [look_resend_eq hplace]
    refine sent_looked (h.assured_at hplace)
      hlookup (Or.inr ⟨htodo _ List.mem_cons_self, by rwa [hplace]⟩) rfl
      (fun k => ?_) (by rw [hplace]; rfl) rfl
    unfold Waits
    rw [hplace]
    unfold noting
    dsimp only
    rw [hsame.unresolved]
    simp only [Place.held, Place.swept, List.mem_append, List.mem_singleton, not_or, reduceCtorEq,
      false_or, and_assoc]

/-! ## What was announced -/

/-- The route under `k` is in the table and does not wait. -/
def Out (inet : Inet) (s : ResolverThread) (k : Text) (port : Nat) : Prop :=
  ∃ e, s.ft.routeTable.lookup k = some e ∧ ¬Waits inet s k ∧ e.interface.port = port

/-- The route under `k` is out of the table, and will be taken back. -/
def Leaves (inet : Inet) (s : ResolverThread) (k : Text) (port : Nat) : Prop :=
  ∃ re, s.place.leaving = some re ∧ re.toString inet = k ∧ re.interface.port = port ∧
    Known inet s.ft re.gateway

/-- The entries that the resolver has. -/
structure Fed (ports : IPAddress → Option Nat) (s : ResolverThread) : Prop where
  pending : ∀ pr ∈ s.ft.pendingRoutes, pr.rentry.Regular ports
  table : ∀ k e, s.ft.routeTable.lookup k = some e → e.Regular ports
  leaving : ∀ re, s.place.leaving = some re → re.Regular ports

/-- What was announced is what the tables have, but for what waits or is about to be taken back. -/
structure Told (inet : Inet) (ports : IPAddress → Option Nat) (s : ResolverThread) : Prop where
  announced : ∀ r, ¬IsHost ports r → ∀ port, Announced r port s.ft.calls →
    Out inet s (r.key inet) port ∨ Leaves inet s (r.key inet) port
  out : ∀ r, ¬IsHost ports r → ∀ port, Out inet s (r.key inet) port → Announced r port s.ft.calls
  hosts : ∀ a, (ports a).isSome → ∀ port, Announced (.host a) port s.ft.calls ↔
    ∃ he, s.ft.hostTable.lookup (a.toText inet) = some he ∧ he.interface.port = port
  placed : ∀ a he, s.ft.hostTable.lookup (a.toText inet) = some he → ports a = some he.interface.port
  sided : Run.Throughout Sided s.ft.calls
  active : ∀ c ∈ s.ft.calls, c.localIface.active = true

theorem Told.silent {s s' : ResolverThread} (h : Told inet ports s) (hcalls : s'.ft.calls = s.ft.calls)
    (hhosts : s'.ft.hostTable = s.ft.hostTable)
    (hann : ∀ r, ¬IsHost ports r → ∀ port, Out inet s (r.key inet) port ∨ Leaves inet s (r.key inet) port →
      Out inet s' (r.key inet) port ∨ Leaves inet s' (r.key inet) port)
    (hout : ∀ k port, Out inet s' k port → Out inet s k port) : Told inet ports s' := by
  refine ⟨fun r hr port hr' => ?_, fun r hr port hr' => ?_, ?_, ?_, ?_, ?_⟩
  · rw [hcalls] at hr'
    exact hann r hr port (h.announced r hr port hr')
  · rw [hcalls]
    exact h.out r hr port (hout _ port hr')
  · rw [hcalls, hhosts]
    exact h.hosts
  · rw [hhosts]
    exact h.placed
  · rw [hcalls]
    exact h.sided
  · rw [hcalls]
    exact h.active

theorem Told.speak {s s' : ResolverThread} {c : HwCall} {q : Prefix} (h : Told inet ports s)
    (hcalls : s'.ft.calls = s.ft.calls ++ [c]) (hhosts : s'.ft.hostTable = s.ft.hostTable) (hfor : c.IsFor q)
    (hq : ¬IsHost ports q) (hactive : c.localIface.active = true) (hsided : Sided s.ft.calls c)
    (hann : ∀ r, ¬IsHost ports r → ∀ port, Announced r port (s.ft.calls ++ [c]) →
      Out inet s' (r.key inet) port ∨ Leaves inet s' (r.key inet) port)
    (hout : ∀ r, ¬IsHost ports r → ∀ port, Out inet s' (r.key inet) port →
      Announced r port (s.ft.calls ++ [c])) :
    Told inet ports s' := by
  refine ⟨?_, ?_, fun a ha port => ?_, ?_, ?_, ?_⟩
  · rw [hcalls]
    exact hann
  · rw [hcalls]
    exact hout
  · have hne : Prefix.host a ≠ q := by
      rintro rfl
      exact hq ⟨a, rfl, ha⟩
    rw [hcalls, hhosts, announced_snoc hfor, ← h.hosts a ha]
    simp [hne]
  · rw [hhosts]
    exact h.placed
  · rw [hcalls]
    exact h.sided.push hsided
  · rw [hcalls]
    simp only [List.mem_append, List.mem_singleton]
    rintro c' (hc | rfl)
    · exact h.active c' hc
    · exact hactive

section Step

variable (hi : inet.Textual)

include hi in
theorem Told.look {s s' : ResolverThread} (hl : Looked inet s s') (hhosts : s'.ft.hostTable = s.ft.hostTable)
    (hf : Fed ports s) (h : Told inet ports s) : Told inet ports s' := by
  have hknown : ∀ a, Known inet s'.ft a ↔ Known inet s.ft a := by
    intro a
    unfold Known
    rw [findHost_congr hhosts]
  cases hl with
  | moved table calls waits leaving =>
    apply h.silent calls hhosts
    · simp only [Out, Leaves, table, waits, leaving, hknown]
      exact fun _ _ _ => id
    · simp only [Out, table, waits]
      exact fun _ _ => id
  | gaveUp left unknown table calls waits leaving =>
    apply h.silent calls hhosts
    · rintro r - port (hout | ⟨re, hre, -, -, hk⟩)
      · exact Or.inl (by simpa only [Out, table, waits] using hout)
      · rw [left, Option.some.injEq] at hre
        subst hre
        exact absurd hk unknown
    · simp only [Out, table, waits]
      exact fun _ _ => id
  | @inserted re mem new table calls waits none_left leaving =>
    apply h.silent calls hhosts
    · rintro r - port (⟨e, he, hw, hport⟩ | ⟨_, hre, -⟩)
      · have hne : r.key inet ≠ re.toString inet := by
          intro heq
          exact new (heq ▸ mem_of_lookup he)
        refine Or.inl ⟨e, by rw [table, AList.lookup_insert_ne hne, he], ?_, hport⟩
        simp [waits, hw, hne]
      · simp [none_left] at hre
    · rintro k port ⟨e, he, hw, hport⟩
      rw [waits, not_or] at hw
      rw [table, AList.lookup_insert_ne hw.2] at he
      exact ⟨e, he, hw.1, hport⟩
  | @erased re e mem stored hport known table calls waits none_left leaving =>
    apply h.silent calls hhosts
    · rintro r - port (⟨e', he, hw, hport'⟩ | ⟨_, hre, -⟩)
      · by_cases hkey : r.key inet = re.toString inet
        · -- It was out, so its gateway is known.
          rw [hkey] at he hw
          obtain rfl : e' = e := Option.some.inj (he.symm.trans stored)
          exact Or.inr ⟨re, leaving, hkey.symm, hport.symm.trans hport', (hknown _).mpr (known hw)⟩
        · refine Or.inl ⟨e', by rw [table, AList.lookup_erase_ne hkey, he], ?_, hport'⟩
          simp [waits, hw]
      · simp [none_left] at hre
    · rintro k port ⟨e', he, hw, hport'⟩
      have hkey : k ≠ re.toString inet := by
        rintro rfl
        rw [table, AList.lookup_erase] at he
        cases he
      rw [table, AList.lookup_erase_ne hkey] at he
      exact ⟨e', he, fun hw' => hw ((waits _).mpr ⟨hw', hkey⟩), hport'⟩
  | @sent re mac stored waited table calls waits none_left leaving =>
    obtain ⟨hactive, q, hq, hnot⟩ := hf.table _ re stored
    have hkey : re.toString inet = q.key inet := hq.toString_eq inet
    have hnew : ∀ port, ¬Announced q port s.ft.calls := by
      intro port hann
      rcases h.announced q hnot port hann with ⟨_, -, hw, -⟩ | ⟨_, hre, -⟩
      · exact hw (hkey ▸ waited)
      · simp [none_left] at hre
    have hfor : HwCall.IsFor q ⟨.add, re.address, re.netmask, re.interface, mac⟩ := hq
    refine h.speak calls hhosts hfor hnot hactive ⟨q, hfor, Or.inl rfl,
      fun port hann => absurd hann (hnew port)⟩
      (fun r hr port hann => ?_) (fun r hr port hout => ?_)
    · rcases (announced_snoc hfor r port _).mp hann with ⟨-, rfl, hport⟩ | ⟨hann, -⟩
      · refine Or.inl ⟨re, by rw [table, ← hkey, stored], ?_, hport⟩
        simp [waits, hkey]
      · rcases h.announced r hr port hann with ⟨e, he, hw, hport⟩ | ⟨_, hre, -⟩
        · exact Or.inl ⟨e, by rw [table, he], fun hw' => hw ((waits _).mp hw').1, hport⟩
        · simp [none_left] at hre
    · obtain ⟨e, he, hw, hport⟩ := hout
      rw [table] at he
      rw [announced_snoc hfor]
      by_cases hr' : r = q
      · subst hr'
        rw [← hkey, stored, Option.some.injEq] at he
        subst he
        exact Or.inl ⟨rfl, rfl, hport⟩
      · have hne : r.key inet ≠ re.toString inet := by
          rw [hkey]
          exact fun heq => hr' (hi.prefixKey_inj.mp heq)
        have hann := h.out r hr port ⟨e, he, fun hw' => hw ((waits _).mpr ⟨hw', hne⟩), hport⟩
        exact Or.inr ⟨hann, by simp⟩
  | @tookBack re mac left gone table calls waits leaving =>
    obtain ⟨hactive, q, hq, hnot⟩ := hf.leaving re left
    have hkey : re.toString inet = q.key inet := hq.toString_eq inet
    have hfor : HwCall.IsFor q ⟨.delete, re.address, re.netmask, re.interface, mac⟩ := hq
    have hkept : ∀ k port, Out inet s' k port ↔ Out inet s k port := by
      intro k port
      simp only [Out, table, waits]
    rw [hkey] at gone
    refine h.speak calls hhosts hfor hnot hactive ⟨q, hfor, Or.inr rfl, fun port hann => ?_⟩
      (fun r hr port hann => ?_) (fun r hr port hout => ?_)
    · rcases h.announced q hnot port hann with ⟨e, he, -, -⟩ | ⟨re', hre, -, hport, -⟩
      · exact absurd (mem_of_lookup he) gone
      · rw [left, Option.some.injEq] at hre
        subst hre
        exact hport.symm
    · rcases (announced_snoc hfor r port _).mp hann with ⟨hmod, -⟩ | ⟨hann, hne⟩
      · cases hmod
      · rcases h.announced r hr port hann with hout | ⟨re', hre, hk, -⟩
        · exact Or.inl ((hkept _ _).mpr hout)
        · rw [left, Option.some.injEq] at hre
          subst hre
          exact absurd ⟨rfl, hi.prefixKey_inj.mp (hk.symm.trans hkey)⟩ hne
    · have hout' := (hkept _ _).mp hout
      rw [announced_snoc hfor]
      refine Or.inr ⟨h.out r hr port hout', ?_⟩
      rintro ⟨-, rfl⟩
      obtain ⟨e, he, -, -⟩ := hout'
      exact gone (mem_of_lookup he)

include hi in
theorem Told.host {s : ResolverThread} {he : HostEntry} (hmac : he.hwaddress ≠ MAC_ADDR_NONE)
    (hactive : he.interface.active = true) (hport : ports he.address = some he.interface.port)
    (h : Told inet ports s) : Told inet ports (step vmId inet s (.host he)) := by
  have hsame := @updateHostTable_sameRoutes inet vmId s.ft he
  obtain ⟨c, hcalls, hfor, hmod, hiface⟩ := updateHostTable_calls vmId inet s.ft he
  have hhosts := updateHostTable_hostTable vmId inet s.ft he
  have hknown : ∀ a, Known inet s.ft a → Known inet (s.ft.updateHostTable vmId inet he) a :=
    fun _ => updateHostTable_known hmac
  have hwaits : ∀ k, Waits inet (step vmId inet s (.host he)) k ↔ Waits inet s k := by
    intro k
    unfold Waits
    simp only [step, noting, hsame.unresolved]
  have hhost : ∀ r, ¬IsHost ports r → r ≠ .host he.address := by
    rintro r hr rfl
    exact hr ⟨_, rfl, by simp [hport]⟩
  refine ⟨fun r hr port hann => ?_, fun r hr port hout => ?_, fun a ha port => ?_,
    fun a he' hlookup => ?_, ?_, ?_⟩
  · change Announced r port (s.ft.updateHostTable vmId inet he).calls at hann
    rw [hcalls, announced_snoc hfor] at hann
    rcases hann with ⟨-, hr', -⟩ | ⟨hann, -⟩
    · exact absurd hr' (hhost r hr)
    · rcases h.announced r hr port hann with ⟨e, he', hw, hp⟩ | ⟨re, hre, hk, hp, hkn⟩
      · exact Or.inl ⟨e, hsame.table ▸ he', fun hw' => hw ((hwaits _).mp hw'), hp⟩
      · exact Or.inr ⟨re, hre, hk, hp, hknown _ hkn⟩
  · obtain ⟨e, he', hw, hp⟩ := hout
    change Announced r port (s.ft.updateHostTable vmId inet he).calls
    rw [hcalls, announced_snoc hfor]
    refine Or.inr ⟨h.out r hr port ⟨e, ?_, fun hw' => hw ((hwaits _).mpr hw'), hp⟩, by simp [hmod]⟩
    rw [← hsame.table]
    exact he'
  · change Announced _ port (s.ft.updateHostTable vmId inet he).calls ↔
      ∃ he', (s.ft.updateHostTable vmId inet he).hostTable.lookup _ = some he' ∧ _
    rw [hcalls, announced_snoc hfor, h.hosts a ha, hhosts, hmod, hiface]
    by_cases hsameAddr : a = he.address
    · subst hsameAddr
      simp only [true_and, AList.lookup_insert, Option.some.injEq, exists_eq_left', reduceCtorEq,
        not_false_eq_true, and_true, or_iff_left_iff_imp]
      rintro ⟨he', hlookup, rfl⟩
      exact Option.some.inj (hport.symm.trans (h.placed _ _ hlookup))
    · have hne : a.toText inet ≠ he.address.toText inet := fun heq => hsameAddr (hi.toText_inj heq)
      have hne' : Prefix.host a ≠ .host he.address := fun heq => hsameAddr (congrArg Prefix.addr heq)
      simp [AList.lookup_insert_ne hne, hne']
  · change (s.ft.updateHostTable vmId inet he).hostTable.lookup _ = _ at hlookup
    rw [hhosts] at hlookup
    by_cases hsameAddr : a.toText inet = he.address.toText inet
    · rw [hsameAddr, AList.lookup_insert, Option.some.injEq] at hlookup
      rw [hi.toText_inj hsameAddr, hport, hlookup]
    · rw [AList.lookup_insert_ne hsameAddr] at hlookup
      exact h.placed a he' hlookup
  · change Run.Throughout Sided (s.ft.updateHostTable vmId inet he).calls
    rw [hcalls]
    refine h.sided.push ⟨_, hfor, Or.inl hmod, fun port hann => ?_⟩
    obtain ⟨he', hlookup, rfl⟩ := (h.hosts _ (by simp [hport]) port).mp hann
    rw [hiface]
    exact Option.some.inj ((h.placed _ _ hlookup).symm.trans hport)
  · change ∀ c ∈ (s.ft.updateHostTable vmId inet he).calls, _
    rw [hcalls]
    simp only [List.mem_append, List.mem_singleton]
    rintro c' (hc | rfl)
    · exact h.active c' hc
    · rw [hiface]
      exact hactive

end Step

/-! ## Runs -/

theorem look_frame {s : ResolverThread} (hp : Placed inet s) :
    (s.look vmId inet).ft.hostTable = s.ft.hostTable ∧
      (s.look vmId inet).ft.pendingRoutes ⊆ s.ft.pendingRoutes := by
  have hsend : ∀ mod re, (s.ft.sendRouteToHw vmId inet mod re).hostTable = s.ft.hostTable ∧
      (s.ft.sendRouteToHw vmId inet mod re).pendingRoutes ⊆ s.ft.pendingRoutes := by
    intro mod re
    rw [sendRouteToHw_hostTable, (@sendRouteToHw_sameRoutes inet vmId s.ft mod re).pending]
    exact ⟨rfl, List.Subset.refl _⟩
  cases hplace : s.place with
  | drain =>
    cases hpending : s.ft.pendingRoutes with
    | nil =>
      rw [look_drain_nil hplace hpending]
      exact ⟨rfl, by simp [hpending]⟩
    | cons pr rest =>
      rw [look_drain_cons hplace hpending]
      unfold take
      dsimp only
      split
      · split <;> exact ⟨rfl, List.subset_cons_self _ _⟩
      · split <;> exact ⟨rfl, List.subset_cons_self _ _⟩
      · exact ⟨rfl, List.subset_cons_self _ _⟩
  | check re =>
    rw [look_check_eq hplace]
    split <;> exact ⟨rfl, List.Subset.refl _⟩
  | send mod re =>
    rw [look_send_eq hplace]
    exact hsend mod re
  | sweep todo resolved =>
    cases todo with
    | nil =>
      rw [look_sweep_nil hplace]
      exact ⟨rfl, List.Subset.refl _⟩
    | cons key todo =>
      obtain ⟨-, htodo⟩ := hp.at_place hplace
      have hmem := hp.listed.mem_table key (htodo key List.mem_cons_self)
      obtain ⟨e, he⟩ := exists_lookup hmem
      rw [look_sweep_cons hplace hmem he]
      exact ⟨rfl, List.Subset.refl _⟩
  | resend key re todo resolved =>
    rw [look_resend_eq hplace]
    exact hsend .add re

theorem Fed.look {s s' : ResolverThread} (hl : Looked inet s s')
    (hpending : s'.ft.pendingRoutes ⊆ s.ft.pendingRoutes) (h : Fed ports s) : Fed ports s' := by
  refine ⟨fun pr hpr => h.pending pr (hpending hpr), ?_, ?_⟩
  · cases hl with
    | moved table | gaveUp _ _ table | sent _ _ table | tookBack _ _ table =>
      rw [table]
      exact h.table
    | @inserted re mem _ table =>
      intro k e he
      rw [table] at he
      by_cases hk : k = re.toString inet
      · rw [hk, AList.lookup_insert, Option.some.injEq] at he
        exact he ▸ h.pending _ mem
      · rw [AList.lookup_insert_ne hk] at he
        exact h.table k e he
    | @erased re _ _ _ _ _ table =>
      intro k e he
      rw [table] at he
      by_cases hk : k = re.toString inet
      · rw [hk, AList.lookup_erase] at he
        cases he
      · rw [AList.lookup_erase_ne hk] at he
        exact h.table k e he
  · cases hl with
    | moved _ _ _ leaving =>
      rw [leaving]
      exact h.leaving
    | gaveUp _ _ _ _ _ leaving | sent _ _ _ _ _ _ leaving | tookBack _ _ _ _ _ leaving
    | inserted _ _ _ _ _ _ leaving =>
      rw [leaving]
      simp
    | erased mem _ _ _ _ _ _ _ leaving =>
      rw [leaving]
      rintro re ⟨⟩
      exact h.pending _ mem

theorem run_told (hi : inet.Textual) {acts : List Act}
    (hk : Run.Along (step vmId inet) (Kernel inet ports) {} acts) :
    Placed inet (run vmId inet acts) ∧ Fed ports (run vmId inet acts) ∧
    Told inet ports (run vmId inet acts) := by
  have hstart : Told inet ports {} := by
    refine ⟨?_, ?_, ?_, by simp, by rintro before e after h; simp at h, by simp⟩
    · intro r _ port hann
      exact absurd hann Run.not_since_nil
    · rintro r _ port ⟨e, he, -⟩
      simp at he
    · intro a _ port
      simp [Announced]
  have hrun := @Run.invariant _ _ (step vmId inet) (Kernel inet ports)
    (fun s => (Placed inet s ∧ Sound inet s) ∧ Fed ports s ∧ Told inet ports s) ?_ _ acts
    ⟨⟨placed_init, trivial, ?_⟩, ⟨by simp, by simp, by simp [Place.leaving]⟩, hstart⟩ hk
  · exact ⟨hrun.1.1, hrun.2⟩
  · rintro s a hka ⟨⟨hp, hs⟩, hf, ht⟩
    refine ⟨⟨step_placed a hp, step_sound hka.proper hp hs⟩, ?_⟩
    cases a with
    | route pr =>
      refine ⟨⟨?_, hf.table, hf.leaving⟩, ?_⟩
      · simp only [step, List.mem_append, List.mem_singleton]
        rintro pr' (hpr | rfl)
        · exact hf.pending _ hpr
        · exact hka
      · exact Told.look (s := s) hi (.moved rfl rfl (fun _ => Iff.rfl) rfl) rfl hf ht
    | host he =>
      have hsame := @updateHostTable_sameRoutes inet vmId s.ft he
      refine ⟨⟨?_, ?_, hf.leaving⟩, ht.host hi hka.1 hka.2.1 hka.2.2⟩
      · simp only [step, noting, hsame.pending]
        exact hf.pending
      · simp only [step, noting, hsame.table]
        exact hf.table
    | look =>
      have hl : Looked inet s (step vmId inet s .look) := look_looked hp hs hka
      obtain ⟨hhosts, hpending⟩ := @look_frame vmId inet s hp
      exact ⟨hf.look hl hpending, ht.look hi hl hhosts hf⟩
  · intro k
    exact ⟨fun hin => absurd hin (by simp), by simp, fun _ ho => by simp [Place.owed] at ho,
      fun _ _ => Or.inl rfl⟩

/-- The routes of the table that do not wait, and the neighbours. -/
def Forwards (inet : Inet) (ft : FlowTable) (r : Prefix) (port : Nat) : Prop :=
  (∃ e, ft.routeTable.lookup (r.key inet) = some e ∧ r.key inet ∉ ft.unresolvedRoutes ∧
    e.interface.port = port) ∨ ∃ a he, r = .host a ∧ ft.hostTable.lookup (a.toText inet) = some he ∧
      he.interface.port = port

theorem announced_iff (hi : inet.Textual) {acts : List Act}
    (hk : Run.Along (step vmId inet) (Kernel inet ports) {} acts)
    (hdrain : (run vmId inet acts).place = .drain) (r : Prefix) (port : Nat) :
    Announced r port (run vmId inet acts).ft.calls ↔ Forwards inet (run vmId inet acts).ft r port := by
  obtain ⟨hp, hf, ht⟩ := run_told hi hk
  have hout : Out inet (run vmId inet acts) (r.key inet) port ↔ ∃ e,
      (run vmId inet acts).ft.routeTable.lookup (r.key inet) = some e ∧
        r.key inet ∉ (run vmId inet acts).ft.unresolvedRoutes ∧ e.interface.port = port := by
    unfold Out
    rw [waits_drain hdrain]
  unfold Forwards
  rw [← hout]
  by_cases hr : IsHost ports r
  · obtain ⟨a, rfl, ha⟩ := hr
    rw [ht.hosts a ha]
    constructor
    · rintro ⟨he, hlookup, hport⟩
      exact Or.inr ⟨a, he, rfl, hlookup, hport⟩
    · rintro (⟨e, he, -, -⟩ | ⟨b, he, hab, hlookup, hport⟩)
      · obtain ⟨-, q, hq, hnot⟩ := hf.table _ e he
        have hkey : q.key inet = (Prefix.host a).key inet :=
          (hq.toString_eq inet).symm.trans (hp.keyed _ e he)
        obtain rfl := hi.prefixKey_inj.mp hkey
        exact absurd ⟨a, rfl, ha⟩ hnot
      · obtain rfl : a = b := congrArg Prefix.addr hab
        exact ⟨he, hlookup, hport⟩
  · constructor
    · intro hann
      rcases ht.announced r hr port hann with hout | ⟨re, hre, -⟩
      · exact Or.inl hout
      · simp [hdrain, Place.leaving] at hre
    · rintro (hout | ⟨a, he, rfl, hlookup, -⟩)
      · exact ht.out r hr port hout
      · exact absurd ⟨a, rfl, by simp [ht.placed a he hlookup]⟩ hr

/-! ## RouteMods -/

end ResolverThread

/-- The RouteMod that `sendToHw` makes of the call. -/
def HwCall.routeMod (vmId : Nat) (c : HwCall) : RouteMod :=
  sendToHw vmId c.mod c.addr c.mask c.localIface c.gateway

/-- The queue has the calls for interfaces that are up. -/
def FlowTable.Queued (vmId : Nat) (ft : FlowTable) : Prop :=
  ft.rmQ = (ft.calls.filter (·.localIface.active)).map (·.routeMod vmId)

theorem FlowTable.handOver_queued {vmId : Nat} {ft : FlowTable} (h : ft.Queued vmId) (c : HwCall) :
    (ft.handOver vmId c).Queued vmId := by
  unfold Queued handOver at *
  dsimp only
  split
  · rename_i hactive
    simp [h, List.filter_append, hactive, HwCall.routeMod]
  · rename_i hactive
    simp [h, List.filter_append, hactive]

namespace ResolverThread

variable {vmId : Nat} {inet : Inet} {ports : IPAddress → Option Nat}

theorem step_queued {s : ResolverThread} (h : s.ft.Queued vmId) (a : Act) :
    (step vmId inet s a).ft.Queued vmId := by
  have hsend : ∀ mod re, (s.ft.sendRouteToHw vmId inet mod re).Queued vmId := by
    intro mod re
    unfold sendRouteToHw
    dsimp only
    split
    · exact h
    · exact handOver_queued h _
  have hopen : ∀ key, (s.ft.openRoute key).Queued vmId := by
    intro key
    unfold openRoute
    split <;> exact h
  cases a with
  | route pr => exact h
  | host he => exact handOver_queued h _
  | look =>
    unfold step look
    dsimp only
    split
    · split
      · exact h
      · unfold take
        dsimp only
        split
        · split <;> exact h
        · split <;> exact h
        · exact h
    · split <;> exact h
    · exact hsend _ _
    · exact h
    · split <;> exact hopen _
    · exact hsend _ _

theorem run_rmQ (hi : inet.Textual) {acts : List Act}
    (hk : Run.Along (step vmId inet) (Kernel inet ports) {} acts) :
    (run vmId inet acts).ft.rmQ = (run vmId inet acts).ft.calls.map (·.routeMod vmId) := by
  obtain ⟨-, -, ht⟩ := run_told hi hk
  have hqueued := @Run.invariant _ _ (step vmId inet) (fun _ _ => True) (fun s => s.ft.Queued vmId)
    (fun _ a _ h => step_queued h a) {} acts rfl (Run.along_true _ _ _)
  exact hqueued.trans (congrArg _ (List.filter_eq_self.mpr ht.active))

end ResolverThread

end RouteFlow
