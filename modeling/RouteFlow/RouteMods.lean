import RouteFlow.Isl

/-!
# What register_route_mod does

When it reaches its end, and whether any RouteMod leaves it then.
-/

namespace RouteFlow

open Store

/-! ## Ports -/

def PortEntry.flow (rm : RouteMod) (e : PortEntry) : RouteMod :=
  (rm.addMatch (.ethernet (ethMac (e.ethAddr.getD [])))).addMatch (.inPort (e.dpPort.getD 0))

/-- The port has a number, and an address that `ether_to_bin` takes. -/
def PortEntry.Complete (e : PortEntry) : Prop := ∃ t p, e.ethAddr = some t ∧ Readable t ∧ e.dpPort = some p

theorem mapM_ok {α β : Type} {f : α → Except PyErr β} {g : α → β} (l : List α)
    (h : ∀ x ∈ l, f x = .ok (g x)) : l.mapM f = .ok (l.map g) := by
  induction l with
  | nil => rfl
  | cons x rest ih =>
    rw [List.mapM_cons, h x List.mem_cons_self, ih fun y hy => h y (List.mem_cons_of_mem _ hy)]
    rfl

theorem sendRmWithMatches_ok (rm : RouteMod) (out : Option Nat) (entries : List PortEntry)
    (h : ∀ e ∈ entries, e.eligible out = true → e.Complete) :
    Translator.sendRmWithMatches rm out entries =
      .ok ((entries.filter fun e => e.eligible out).map fun e => e.flow rm) := by
  unfold Translator.sendRmWithMatches
  apply mapM_ok
  intro e he
  obtain ⟨hm, hel⟩ := List.mem_filter.mp he
  obtain ⟨t, p, heth, hread, hp⟩ := h e hm hel
  simp only [heth, hp, Match.ETHERNET_readable hread, Match.IN_PORT, PortEntry.flow, Option.getD_some]
  rfl

theorem mapM_error {α β : Type} {f : α → Except PyErr β} {l : List α} {x : α} (hx : x ∈ l) {e : PyErr}
    (h : f x = .error e) : ∃ e', l.mapM f = .error e' := by
  induction l with
  | nil => cases hx
  | cons y rest ih =>
    rw [List.mapM_cons]
    rcases List.mem_cons.mp hx with rfl | hx
    · exact ⟨e, by rw [h]; rfl⟩
    · obtain ⟨e', he'⟩ := ih hx
      cases hy : f y with
      | error e'' => exact ⟨e'', rfl⟩
      | ok z => exact ⟨e', by rw [he']; rfl⟩

theorem sendRmWithMatches_error (rm : RouteMod) {out : Option Nat} {entries : List PortEntry} {e : PortEntry}
    (he : e ∈ entries) (hel : e.eligible out = true) {t : Text} (heth : e.ethAddr = some t)
    (h : ¬ Readable t) :
    ∃ err, Translator.sendRmWithMatches rm out entries = .error err := by
  obtain ⟨err, herr⟩ := Match.ETHERNET_error h
  refine mapM_error (List.mem_filter.mpr ⟨he, hel⟩) (e := err) ?_
  simp only [heth, herr]
  rfl

section Ports

variable {o : Order}

theorem mem_rfPorts {t : RFTable} {c d : Option Nat} {e : PortEntry} :
    e ∈ rfPorts o t c d ↔ ∃ r ∈ t.rows, (r.val.dpId = d ∧ r.val.ctId = c) ∧ r.val.toPort = e := by
  simp [rfPorts, and_assoc]

theorem mem_islPorts {t : RFISLTable} {c d : Option Nat} {e : PortEntry} :
    e ∈ islPorts o t c d ↔ ∃ r ∈ t.rows, (r.val.dpId = d ∧ r.val.ctId = c) ∧ r.val.toPort = e := by
  simp [islPorts, and_assoc]

theorem eligible_iff (out : Option Nat) (e : PortEntry) :
    e.eligible out = true ↔ out ≠ e.dpPort ∧ (e.status = .rfentryActive ∨ e.status = .rfislActive) := by
  simp [PortEntry.eligible]

theorem rfPorts_complete {t : RFTable} (hs : RFShaped t) {c d out : Option Nat} {e : PortEntry}
    (he : e ∈ rfPorts o t c d) (hel : e.eligible out = true) : e.Complete := by
  obtain ⟨r, hr, -, rfl⟩ := mem_rfPorts.mp he
  obtain ⟨sh, hsh⟩ := hs r hr
  have hst := ((eligible_iff _ _).mp hel).2
  simp only [RFEntry.toPort, hsh, RFShape.entry_status] at hst
  have hactive : sh.status = .rfentryActive := by
    rcases hst with h | h
    · exact h
    · cases sh <;> simp [RFShape.status] at h
  obtain ⟨v, m, x, vs, vp, rfl⟩ := RFShape.eq_active_of_status hactive
  exact ⟨m.text, x.dpPort, by rw [hsh]; rfl, (isMac_text m).readable, by rw [hsh]; rfl⟩

theorem mem_islPorts_eligible {t : RFISLTable} (hs : IslShaped t) {c d : Nat} {out : Option Nat}
    {e : PortEntry} :
    e ∈ islPorts o t (some c) (some d) ∧ e.eligible out = true ↔
      ∃ r ∈ t.rows, ∃ a b, r.val.near = some a ∧ r.val.far = some b ∧ a.ctId = c ∧ a.dpId = d ∧
      out ≠ some a.dpPort ∧
        r.val.toPort = e := by
  rw [mem_islPorts, eligible_iff]
  constructor
  · rintro ⟨⟨r, hr, ⟨hd, hc⟩, rfl⟩, hne, hst⟩
    obtain ⟨⟨v, n, f⟩, hsh⟩ := hs r hr
    simp only [RFISLEntry.toPort, hsh, RFISLShape.entry_status] at hd hc hne hst
    cases n with
    | none => simp [RFISLShape.entry] at hd
    | some a =>
      cases f with
      | none => simp [RFISLShape.status] at hst
      | some b =>
        rw [hsh]
        exact ⟨r, hr, a, b, by rw [hsh]; simp, by rw [hsh]; simp, Option.some.inj hc, Option.some.inj hd,
          hne, by rw [hsh]⟩
  · rintro ⟨r, hr, a, b, hn, hf, rfl, rfl, hne, rfl⟩
    obtain ⟨hc, hd, hp, -⟩ := (RFISLEntry.near_eq_some _ _).mp hn
    refine ⟨⟨r, hr, ⟨hd, hc⟩, rfl⟩, by rw [RFISLEntry.toPort, hp]; exact hne, Or.inr ?_⟩
    obtain ⟨⟨v, n, f⟩, hsh⟩ := hs r hr
    rw [hsh, RFISLShape.entry_near] at hn
    rw [hsh, RFISLShape.entry_far] at hf
    obtain rfl : n = some a := hn
    obtain rfl : f = some b := hf
    simp only [RFISLEntry.toPort, hsh, RFISLShape.entry_status]
    rfl

/-- `ether_to_bin` takes the address of each link port that a route can come in by. -/
def PortsReadable (t : RFISLTable) (d : DpPort) : Prop :=
  ∀ r ∈ t.rows, ∀ a b, r.val.near = some a → r.val.far = some b → a.ctId = d.ctId → a.dpId = d.dpId →
    a.dpPort ≠ d.dpPort → Readable a.ethAddr

theorem islPorts_complete {t : RFISLTable} (hs : IslShaped t) {d : DpPort} (h : PortsReadable t d)
    {e : PortEntry} (he : e ∈ islPorts o t (some d.ctId) (some d.dpId))
    (hel : e.eligible (some d.dpPort) = true) : e.Complete := by
  obtain ⟨r, hr, a, b, hn, hf, hc, hd, hne, rfl⟩ := (mem_islPorts_eligible hs).mp ⟨he, hel⟩
  obtain ⟨-, -, hp, hm⟩ := (RFISLEntry.near_eq_some _ _).mp hn
  exact ⟨a.ethAddr, a.dpPort, hm, h r hr a b hn hf hc hd (fun heq => hne (congrArg some heq.symm)), hp⟩

end Ports

/-! ## The translator of the datapath -/

theorem noviFlowSendRmWithMatches_ne_nil (rm : RouteMod) (out : Option Nat) (entries : List PortEntry) :
    Translator.noviFlowSendRmWithMatches rm out entries ≠ [] ↔ ∃ e ∈ entries, e.eligible out = true := by
  rw [← List.any_eq_true]
  unfold Translator.noviFlowSendRmWithMatches
  split <;> simp_all

theorem mem_noviFlowSendRmWithMatches (rm f : RouteMod) (out : Option Nat) (entries : List PortEntry) :
    f ∈ Translator.noviFlowSendRmWithMatches rm out entries ↔
    (∃ e ∈ entries, e.eligible out = true) ∧ f = rm := by
  rw [← List.any_eq_true]
  unfold Translator.noviFlowSendRmWithMatches
  split <;> simp_all

section Local

variable {o : Order} {rf : RFTable} {isl : RFISLTable} (hs : RFShaped rf) (hi : IslShaped isl)

def localPorts (o : Order) (rf : RFTable) (isl : RFISLTable) (d : DpPort) : List PortEntry :=
  rfPorts o rf (some d.ctId) (some d.dpId) ++ islPorts o isl (some d.ctId) (some d.dpId)

include hs hi in
theorem localPorts_complete {d : DpPort} (h : PortsReadable isl d) {e : PortEntry}
    (he : e ∈ localPorts o rf isl d) (hel : e.eligible (some d.dpPort) = true) : e.Complete := by
  rcases List.mem_append.mp he with he | he
  · exact rfPorts_complete hs he hel
  · exact islPorts_complete hi h he hel

include hs hi in
theorem defaultHandleRouteMod_ok {entry : RFEntry} {d : DpPort} (hd : entry.dp = some d)
    (h : PortsReadable isl d) (rm : RouteMod) :
    Translator.defaultHandleRouteMod o rf isl entry rm =
      .ok (rm.addAction (.output d.dpPort),
        ((localPorts o rf isl d).filter fun e => e.eligible (some d.dpPort)).map fun e =>
          e.flow (rm.addAction (.output d.dpPort))) := by
  obtain ⟨hc, hid, hp⟩ := (RFEntry.dp_eq_some _ _).mp hd
  have hsend := sendRmWithMatches_ok (rm.addAction (.output d.dpPort)) (some d.dpPort) (localPorts o rf isl d)
    fun e he hel => localPorts_complete hs hi h he hel
  simp only [Translator.defaultHandleRouteMod, hc, hid, hp, Action.OUTPUT]
  simp only [localPorts] at hsend ⊢
  simp only [bind, Except.bind, hsend]
  rfl

variable (o rf) in
include hi in
theorem defaultHandleRouteMod_error {entry : RFEntry} {d : DpPort} (hd : entry.dp = some d)
    (h : ¬ PortsReadable isl d) (rm : RouteMod) :
    ∃ err, Translator.defaultHandleRouteMod o rf isl entry rm = .error err := by
  obtain ⟨hc, hid, hp⟩ := (RFEntry.dp_eq_some _ _).mp hd
  unfold PortsReadable at h
  push Not at h
  obtain ⟨r, hr, a, b, hn, hf, hac, had, hne, hread⟩ := h
  obtain ⟨he, hel⟩ := (mem_islPorts_eligible (o := o) hi).mpr
    ⟨r, hr, a, b, hn, hf, hac, had, fun heq => hne (Option.some.inj heq).symm, rfl⟩
  obtain ⟨-, -, -, hm⟩ := (RFISLEntry.near_eq_some _ _).mp hn
  obtain ⟨err, herr⟩ := sendRmWithMatches_error (rm.addAction (.output d.dpPort))
    (List.mem_append_right (rfPorts o rf (some d.ctId) (some d.dpId)) he) hel hm hread
  refine ⟨err, ?_⟩
  simp only [Translator.defaultHandleRouteMod, hc, hid, hp, Action.OUTPUT]
  simp only [bind, Except.bind, herr]

/-- The translator of the datapath can read the addresses that it needs. A NoviFlow switch needs none of
them. -/
def RouteReadable (tr : Translator) (isl : RFISLTable) (d : DpPort) : Prop :=
  tr.kind ≠ .noviFlow → PortsReadable isl d

include hs hi in
theorem handleRouteMod_ok {tr : Translator} {entry : RFEntry} {d : DpPort} (hd : entry.dp = some d)
    (h : RouteReadable tr isl d) (rm : RouteMod) :
    ∃ rm' rms, tr.handleRouteMod o rf isl entry rm = .ok (rm', rms) ∧
      (rms ≠ [] ↔ ∃ e ∈ localPorts o rf isl d, e.eligible (some d.dpPort) = true) := by
  unfold Translator.handleRouteMod
  cases hk : tr.kind with
  | default | satellite =>
    dsimp only
    rw [defaultHandleRouteMod_ok hs hi hd (h (by simp [hk]))]
    exact ⟨_, _, rfl, by simp [List.filter_eq_nil_iff]⟩
  | noviFlow =>
    obtain ⟨hc, hid, hp⟩ := (RFEntry.dp_eq_some _ _).mp hd
    simp only [Translator.noviFlowHandleRouteMod, hc, hid, hp, Action.OUTPUT]
    exact ⟨_, _, rfl, noviFlowSendRmWithMatches_ne_nil _ _ _⟩

variable (o rf) in
include hi in
theorem handleRouteMod_error {tr : Translator} {entry : RFEntry} {d : DpPort} (hd : entry.dp = some d)
    (h : ¬ RouteReadable tr isl d) (rm : RouteMod) :
    ∃ err, tr.handleRouteMod o rf isl entry rm = .error err := by
  unfold RouteReadable at h
  push Not at h
  obtain ⟨hk, hread⟩ := h
  unfold Translator.handleRouteMod
  cases hkind : tr.kind with
  | default | satellite => exact defaultHandleRouteMod_error o rf hi hd hread rm
  | noviFlow => exact absurd hkind hk

include hi in
theorem routeReadable_of_ok {tr : Translator} {entry : RFEntry} {d : DpPort} (hd : entry.dp = some d)
    {rm : RouteMod} {res : RouteMod × List RouteMod} (h : tr.handleRouteMod o rf isl entry rm = .ok res) :
    RouteReadable tr isl d := by
  by_contra hno
  obtain ⟨e, he⟩ := handleRouteMod_error o rf hi hd hno rm
  rw [h] at he
  cases he

end Local

/-! ## The translators of the neighbours -/

section Neighbours

variable {o : Order} {rf : RFTable} (hs : RFShaped rf)

/-- `ether_to_bin` takes both addresses of the link. -/
def LinkReadable (r : RFISLEntry) : Prop :=
  ∀ a b, r.near = some a → r.far = some b → Readable a.ethAddr ∧ Readable b.ethAddr

theorem islActions_ok {r : RFISLEntry} {a b : IslEnd} (hn : r.near = some a) (hf : r.far = some b)
    (h : LinkReadable r) : Translator.islActions r =
      .ok [.setEthSrc a.mac, .setEthDst b.mac, .output a.dpPort] := by
  obtain ⟨-, -, hp, hm⟩ := (RFISLEntry.near_eq_some _ _).mp hn
  obtain ⟨-, -, -, hm'⟩ := (RFISLEntry.far_eq_some _ _).mp hf
  obtain ⟨ha, hb⟩ := h a b hn hf
  simp only [Translator.islActions, hp, hm, hm', Action.SET_ETH_SRC_readable ha,
    Action.SET_ETH_DST_readable hb]
  rfl

theorem islActions_error {r : RFISLEntry} (h : ¬ LinkReadable r) :
    ∃ e, Translator.islActions r = .error e := by
  unfold LinkReadable at h
  push Not at h
  obtain ⟨a, b, hn, hf, hno⟩ := h
  obtain ⟨-, -, hp, hm⟩ := (RFISLEntry.near_eq_some _ _).mp hn
  obtain ⟨-, -, -, hm'⟩ := (RFISLEntry.far_eq_some _ _).mp hf
  by_cases ha : Readable a.ethAddr
  · obtain ⟨e, he⟩ := Action.SET_ETH_DST_error (hno ha)
    refine ⟨e, ?_⟩
    simp only [Translator.islActions, hp, hm, hm', Action.SET_ETH_SRC_readable ha, he]
    rfl
  · obtain ⟨e, he⟩ := Action.SET_ETH_SRC_error ha
    refine ⟨e, ?_⟩
    simp only [Translator.islActions, hm, he]
    rfl

/-- The RouteMod that carries a prefix over a link, before it is copied for each port. -/
def islRouteMod (dpId : Nat) (a b : IslEnd) (rm : RouteMod) : RouteMod :=
  ((rm.setId dpId).setTable 0).setActions [.setEthSrc a.mac, .setEthDst b.mac, .output a.dpPort]

include hs in
theorem defaultHandleIslRouteMod_ok (tr : Translator) {r : RFISLEntry} {a b : IslEnd} (hn : r.near = some a)
    (hf : r.far = some b) (h : LinkReadable r) (rm : RouteMod) :
    tr.defaultHandleIslRouteMod o rf r rm =
      .ok (((rfPorts o rf (some a.ctId) (some a.dpId)).filter fun e => e.eligible (some a.dpPort)).map
        fun e =>
        e.flow (islRouteMod tr.dpId a b rm)) := by
  obtain ⟨hc, hid, hp, -⟩ := (RFISLEntry.near_eq_some _ _).mp hn
  unfold Translator.defaultHandleIslRouteMod
  rw [islActions_ok hn hf h, hc, hid, hp]
  exact sendRmWithMatches_ok _ _ _ fun e he hel => rfPorts_complete hs he hel

variable (o rf) in
theorem defaultHandleIslRouteMod_error (tr : Translator) {r : RFISLEntry} (h : ¬ LinkReadable r)
    (rm : RouteMod) :
    ∃ e, tr.defaultHandleIslRouteMod o rf r rm = .error e := by
  obtain ⟨e, he⟩ := islActions_error h
  refine ⟨e, ?_⟩
  unfold Translator.defaultHandleIslRouteMod
  rw [he]
  rfl

/-- The RouteMod for the FIB of a NoviFlow switch. -/
def islFibRouteMod (dpId : Nat) (a b : IslEnd) (rm : RouteMod) : RouteMod :=
  (((rm.setId dpId).setTable Translator.NOVIFLOW_FIB_TABLE).setOptions [CONTROLLER_PRIORITY]).setActions
    [.setEthSrc a.mac, .setEthDst b.mac, .output a.dpPort]

/-- The address by which a datapath knows packets for the link. -/
def islMac (dpId : Nat) (a b : IslEnd) : Mac := if dpId = a.dpId then a.mac else b.mac

/-- The RouteMod for table 0 of a NoviFlow switch, which all routes over the link have in common. -/
def islMacRouteMod (dpId : Nat) (a b : IslEnd) (rm : RouteMod) : RouteMod :=
  (((islFibRouteMod dpId a b rm).setTable 0).setActions [.goto Translator.NOVIFLOW_FIB_TABLE]).setMatches
    [.ethernet (islMac dpId a b)]

theorem noviFlowHandleIslRouteMod_ok (tr : Translator) {r : RFISLEntry} {a b : IslEnd} (hn : r.near = some a)
    (hf : r.far = some b) (h : LinkReadable r) (rm : RouteMod) :
    tr.noviFlowHandleIslRouteMod o rf r rm =
      .ok (Translator.noviFlowSendRmWithMatches (islFibRouteMod tr.dpId a b rm) (some a.dpPort)
        (rfPorts o rf (some a.ctId) (some a.dpId)) ++ [islMacRouteMod tr.dpId a b rm]) := by
  obtain ⟨hc, hid, hp, hm⟩ := (RFISLEntry.near_eq_some _ _).mp hn
  obtain ⟨-, -, -, hm'⟩ := (RFISLEntry.far_eq_some _ _).mp hf
  obtain ⟨ha, hb⟩ := h a b hn hf
  have hmac : Match.ETHERNET (if some tr.dpId = r.dpId then r.ethAddr else r.remEthAddr) =
      .ok (.ethernet (islMac tr.dpId a b)) := by
    rw [hid, hm, hm', islMac]
    simp only [Option.some_inj]
    split
    · exact Match.ETHERNET_readable ha
    · exact Match.ETHERNET_readable hb
  unfold Translator.noviFlowHandleIslRouteMod
  rw [islActions_ok hn hf h, hmac, hc, hid, hp]
  rfl

variable (o rf) in
theorem noviFlowHandleIslRouteMod_error (tr : Translator) {r : RFISLEntry} (h : ¬ LinkReadable r)
    (rm : RouteMod) :
    ∃ e, tr.noviFlowHandleIslRouteMod o rf r rm = .error e := by
  obtain ⟨e, he⟩ := islActions_error h
  refine ⟨e, ?_⟩
  unfold Translator.noviFlowHandleIslRouteMod
  rw [he]
  rfl

/-- The neighbour has a port that a route over the link gets a flow for. -/
def HasIngress (o : Order) (rf : RFTable) (r : RFISLEntry) : Prop :=
  ∃ e ∈ rfPorts o rf r.ctId r.dpId, e.eligible r.dpPort = true

include hs in
theorem defaultHandleIslRouteMod_emits (tr : Translator) {r : RFISLEntry} {a b : IslEnd}
    (hn : r.near = some a) (hf : r.far = some b) (h : LinkReadable r) (rm : RouteMod) :
    ∃ rms, tr.defaultHandleIslRouteMod o rf r rm = .ok rms ∧ (rms ≠ [] ↔ HasIngress o rf r) := by
  refine ⟨_, defaultHandleIslRouteMod_ok hs tr hn hf h rm, ?_⟩
  obtain ⟨hc, hid, hp, -⟩ := (RFISLEntry.near_eq_some _ _).mp hn
  rw [HasIngress, hc, hid, hp]
  simp [List.filter_eq_nil_iff]

/-- Whether one neighbour makes any RouteMod. A satellite makes them once for each far address. -/
def neighbourEmits (o : Order) (rf : RFTable) (tr : Translator) (r : RFISLEntry) : Prop :=
  match tr.kind with
  | .default => HasIngress o rf r
  | .satellite => r.remEthAddr ∉ tr.sentIslDl ∧ HasIngress o rf r
  | .noviFlow => True

/-- One neighbour reads the addresses of the link, unless it is a satellite that has noted the far one. -/
def neighbourReads (tr : Translator) (r : RFISLEntry) : Prop :=
  tr.kind = .satellite → r.remEthAddr ∉ tr.sentIslDl

include hs in
theorem handleIslRouteMod_ok {tr : Translator} {r : RFISLEntry} {a b : IslEnd} (hn : r.near = some a)
    (hf : r.far = some b) (h : neighbourReads tr r → LinkReadable r) (rm : RouteMod) :
    ∃ rms, tr.handleIslRouteMod o rf r rm = (afterIsl tr r, .ok rms) ∧
    (rms ≠ [] ↔ neighbourEmits o rf tr r) := by
  unfold neighbourReads at h
  unfold Translator.handleIslRouteMod neighbourEmits afterIsl
  cases hk : tr.kind with
  | default =>
    obtain ⟨rms, hok, hne⟩ := defaultHandleIslRouteMod_emits hs (o := o) tr hn hf (h (by simp [hk])) rm
    exact ⟨rms, by simp [hok], hne⟩
  | noviFlow =>
    rw [noviFlowHandleIslRouteMod_ok tr hn hf (h (by simp [hk]))]
    exact ⟨_, rfl, by simp⟩
  | satellite =>
    by_cases hsent : r.remEthAddr ∈ tr.sentIslDl
    · refine ⟨[], ?_, by simp [hsent]⟩
      simp [Translator.satelliteLoop, hsent, ← hk]
    · obtain ⟨rms, hok, hne⟩ := defaultHandleIslRouteMod_emits hs (o := o) tr hn hf (h fun _ => hsent)
        ((rm.setMatches [.ethertype ETHERTYPE_IP]).setOptions [DEFAULT_PRIORITY])
      refine ⟨rms, ?_, by simp [hne, hsent]⟩
      simp [Translator.satelliteLoop, hsent, hok, Except.map]

variable (o rf) in
theorem handleIslRouteMod_error {tr : Translator} {r : RFISLEntry} (hreads : neighbourReads tr r)
    (h : ¬ LinkReadable r) (rm : RouteMod) : ∃ tr' e, tr.handleIslRouteMod o rf r rm = (tr', .error e) := by
  unfold neighbourReads at hreads
  unfold Translator.handleIslRouteMod
  cases hk : tr.kind with
  | default =>
    obtain ⟨e, he⟩ := defaultHandleIslRouteMod_error o rf tr h rm
    exact ⟨tr, e, by rw [he]⟩
  | noviFlow =>
    obtain ⟨e, he⟩ := noviFlowHandleIslRouteMod_error o rf tr h rm
    exact ⟨tr, e, by rw [he]⟩
  | satellite =>
    obtain ⟨e, he⟩ := defaultHandleIslRouteMod_error o rf tr h
      ((rm.setMatches [.ethertype ETHERTYPE_IP]).setOptions [DEFAULT_PRIORITY])
    refine ⟨{ tr with sentIslDl := r.remEthAddr :: tr.sentIslDl }, e, ?_⟩
    simp [Translator.satelliteLoop, hreads hk, he, hk]

theorem linkReadable_of_ok {tr tr' : Translator} {r : RFISLEntry} {rm : RouteMod} {rms : List RouteMod}
    (h : tr.handleIslRouteMod o rf r rm = (tr', .ok rms)) (hreads : neighbourReads tr r) :
    LinkReadable r := by
  by_contra hno
  obtain ⟨tr'', e, he⟩ := handleIslRouteMod_error o rf hreads hno rm
  rw [h] at he
  cases he

/-- `P` holds of some neighbour when its turn comes. A satellite turns to the first link that leads to
an address, and not to its later ones. -/
def SomeLink (P : Translator → RFISLEntry → Prop) (trs : Nat → Option Translator)
    (remotes : List RFISLEntry) : Prop :=
  ∃ before r after, remotes = before ++ r :: after ∧ r.getStatus = .rfislActive ∧
    ∃ d tr, r.dpId = some d ∧ trs d = some tr ∧ P tr r ∧
      (tr.kind = .satellite → ∀ q ∈ before, q.getStatus = .rfislActive → q.dpId = r.dpId →
        q.remEthAddr ≠ r.remEthAddr)

/-- Some neighbour makes a RouteMod. -/
def IslEmits (o : Order) (rf : RFTable) : (Nat → Option Translator) → List RFISLEntry → Prop :=
  SomeLink (neighbourEmits o rf)

/-- The links of this list are rows that the server stores, with a far end. -/
def LinkRows (remotes : List RFISLEntry) : Prop :=
  ∀ r ∈ remotes, r.getStatus = .rfislActive → ∃ a b, r.near = some a ∧ r.far = some b

theorem afterIsl_kind (tr : Translator) (q : RFISLEntry) : (afterIsl tr q).kind = tr.kind := by
  unfold afterIsl
  split
  · split <;> rfl
  · rfl

theorem neighbourReads_afterIsl (tr : Translator) (q r : RFISLEntry) :
    neighbourReads (afterIsl tr q) r ↔
    neighbourReads tr r ∧ (tr.kind = .satellite → q.remEthAddr ≠ r.remEthAddr) := by
  unfold neighbourReads
  rw [afterIsl_kind, ← imp_and]
  refine imp_congr_right fun hk => ?_
  unfold afterIsl
  rw [hk]
  by_cases hq : q.remEthAddr ∈ tr.sentIslDl
  · simp only [hq, if_true]
    exact ⟨fun hr => ⟨hr, fun h => hr (h ▸ hq)⟩, And.left⟩
  · simp only [hq, if_false, List.mem_cons, not_or]
    exact ⟨fun h => ⟨h.2, Ne.symm h.1⟩, fun h => ⟨Ne.symm h.2, h.1⟩⟩

theorem neighbourEmits_iff (tr : Translator) (r : RFISLEntry) :
    neighbourEmits o rf tr r ↔ neighbourReads tr r ∧ (tr.kind ≠ .noviFlow → HasIngress o rf r) := by
  unfold neighbourEmits neighbourReads
  cases tr.kind <;> simp

theorem neighbourEmits_afterIsl (tr : Translator) (q r : RFISLEntry) :
    neighbourEmits o rf (afterIsl tr q) r ↔
      neighbourEmits o rf tr r ∧ (tr.kind = .satellite → q.remEthAddr ≠ r.remEthAddr) := by
  rw [neighbourEmits_iff, neighbourEmits_iff, neighbourReads_afterIsl, afterIsl_kind]
  tauto

section SomeLink

variable {P : Translator → RFISLEntry → Prop} {trs : Nat → Option Translator} {q : RFISLEntry}
  {rest : List RFISLEntry}

theorem someLink_cons
    (hP : ∀ tr q r, P (afterIsl tr q) r ↔ P tr r ∧ (tr.kind = .satellite → q.remEthAddr ≠ r.remEthAddr))
    {d : Nat} {tr : Translator} (hst : q.getStatus = .rfislActive) (hd : q.dpId = some d)
    (htr : trs d = some tr) :
    SomeLink P trs (q :: rest) ↔ P tr q ∨ SomeLink P (Function.update trs d (some (afterIsl tr q))) rest := by
  constructor
  · rintro ⟨before, r, after, heq, hr, e, tr', he, htr', hemit, hsat⟩
    rcases before with _ | ⟨x, before⟩
    · obtain ⟨rfl, rfl⟩ := List.cons.inj heq
      obtain rfl : d = e := by simpa [hd] using he
      obtain rfl : tr = tr' := by simpa [htr] using htr'
      exact Or.inl hemit
    · obtain ⟨rfl, rfl⟩ := List.cons.inj heq
      right
      by_cases hde : e = d
      · subst hde
        obtain rfl : tr = tr' := by simpa [htr] using htr'
        refine ⟨before, r, after, rfl, hr, e, afterIsl tr q, he, by simp, ?_, ?_⟩
        · rw [hP]
          exact ⟨hemit, fun hk => hsat hk q List.mem_cons_self hst (hd.trans he.symm)⟩
        · intro hk x hx
          exact hsat (afterIsl_kind tr q ▸ hk) x (List.mem_cons_of_mem _ hx)
      · refine ⟨before, r, after, rfl, hr, e, tr', he, by simp [hde, htr'], hemit, ?_⟩
        exact fun hk x hx => hsat hk x (List.mem_cons_of_mem _ hx)
  · rintro (hemit | ⟨before, r, after, rfl, hr, e, tr', he, htr', hemit, hsat⟩)
    · exact ⟨[], q, rest, rfl, hst, d, tr, hd, htr, hemit, by simp⟩
    · by_cases hde : e = d
      · subst hde
        obtain rfl : afterIsl tr q = tr' := by simpa using htr'
        obtain ⟨hemit, hne⟩ := (hP tr q r).mp hemit
        refine ⟨q :: before, r, after, rfl, hr, e, tr, he, htr, hemit, ?_⟩
        intro hk x hx hxs hxd
        rcases List.mem_cons.mp hx with rfl | hx
        · exact hne hk
        · exact hsat (by rw [afterIsl_kind]; exact hk) x hx hxs hxd
      · refine ⟨q :: before, r, after, rfl, hr, e, tr', he, by simpa [hde] using htr', hemit, ?_⟩
        intro hk x hx hxs hxd
        rcases List.mem_cons.mp hx with rfl | hx
        · rw [hd, he, Option.some.injEq] at hxd
          exact absurd hxd.symm hde
        · exact hsat hk x hx hxs hxd

theorem someLink_cons_idle (hst : q.getStatus ≠ .rfislActive) :
    SomeLink P trs (q :: rest) ↔ SomeLink P trs rest := by
  constructor
  · rintro ⟨before, r, after, heq, hr, e, tr', he, htr', hemit, hsat⟩
    rcases before with _ | ⟨x, before⟩
    · obtain ⟨rfl, rfl⟩ := List.cons.inj heq
      exact absurd hr hst
    · obtain ⟨rfl, rfl⟩ := List.cons.inj heq
      exact ⟨before, r, after, rfl, hr, e, tr', he, htr', hemit,
        fun hk x hx => hsat hk x (List.mem_cons_of_mem _ hx)⟩
  · rintro ⟨before, r, after, rfl, hr, e, tr', he, htr', hemit, hsat⟩
    refine ⟨q :: before, r, after, rfl, hr, e, tr', he, htr', hemit, ?_⟩
    intro hk x hx hxs
    rcases List.mem_cons.mp hx with rfl | hx
    · exact absurd hxs hst
    · exact hsat hk x hx hxs

end SomeLink

/-- Every link that is active ends at a datapath with a translator. -/
def TranslatorsFor (trs : Nat → Option Translator) (remotes : List RFISLEntry) : Prop :=
  ∀ r ∈ remotes, r.getStatus = .rfislActive → ∀ d, r.dpId = some d → (trs d).isSome

/-- The neighbour reads an address that `ether_to_bin` does not take. -/
def neighbourRaises (tr : Translator) (r : RFISLEntry) : Prop := neighbourReads tr r ∧ ¬ LinkReadable r

/-- Every neighbour has a translator, and the addresses that it reads are ones. -/
structure NeighboursReady (trs : Nat → Option Translator) (remotes : List RFISLEntry) : Prop where
  translators : TranslatorsFor trs remotes
  readable : ¬ SomeLink neighbourRaises trs remotes

theorem neighbourRaises_afterIsl (tr : Translator) (q r : RFISLEntry) :
    neighbourRaises (afterIsl tr q) r ↔
      neighbourRaises tr r ∧ (tr.kind = .satellite → q.remEthAddr ≠ r.remEthAddr) := by
  unfold neighbourRaises
  rw [neighbourReads_afterIsl, and_right_comm]

theorem update_isSome {trs : Nat → Option Translator} {d : Nat} {tr : Translator} (htr : trs d = some tr)
    (tr' : Translator) (e : Nat) : (Function.update trs d (some tr') e).isSome = (trs e).isSome := by
  by_cases he : e = d
  · simp [he, htr]
  · simp [he]

theorem translatorsFor_cons {trs : Nat → Option Translator} {q : RFISLEntry}
    {rest : List RFISLEntry} {d : Nat} {tr : Translator} (hd : q.dpId = some d) (htr : trs d = some tr)
    (tr' : Translator) :
    TranslatorsFor trs (q :: rest) ↔ TranslatorsFor (Function.update trs d (some tr')) rest := by
  unfold TranslatorsFor
  simp only [List.forall_mem_cons, update_isSome htr]
  refine ⟨And.right, fun h => ⟨fun _ e he => ?_, h⟩⟩
  obtain rfl : d = e := by simpa [hd] using he
  simp [htr]

theorem neighboursReady_cons {trs : Nat → Option Translator} {q : RFISLEntry}
    {rest : List RFISLEntry} {d : Nat} {tr : Translator} (hst : q.getStatus = .rfislActive)
    (hd : q.dpId = some d) (htr : trs d = some tr) :
    NeighboursReady trs (q :: rest) ↔
      ¬ neighbourRaises tr q ∧ NeighboursReady (Function.update trs d (some (afterIsl tr q))) rest := by
  have ht := @translatorsFor_cons trs q rest d tr hd htr (afterIsl tr q)
  have hr := @someLink_cons _ trs q rest neighbourRaises_afterIsl d tr hst hd htr
  constructor
  · rintro ⟨htrs, hread⟩
    rw [hr, not_or] at hread
    exact ⟨hread.1, ht.mp htrs, hread.2⟩
  · rintro ⟨hq, htrs, hread⟩
    exact ⟨ht.mpr htrs, by rw [hr, not_or]; exact ⟨hq, hread⟩⟩

theorem neighboursReady_cons_idle {trs : Nat → Option Translator} {q : RFISLEntry} {rest : List RFISLEntry}
    (hst : q.getStatus ≠ .rfislActive) : NeighboursReady trs (q :: rest) ↔ NeighboursReady trs rest := by
  constructor
  · rintro ⟨htrs, hread⟩
    exact ⟨fun r hr => htrs r (List.mem_cons_of_mem _ hr), by rwa [someLink_cons_idle hst] at hread⟩
  · rintro ⟨htrs, hread⟩
    refine ⟨fun r hr hrs => ?_, by rwa [someLink_cons_idle hst]⟩
    rcases List.mem_cons.mp hr with rfl | hr
    · exact absurd hrs hst
    · exact htrs r hr hrs

theorem NeighboursReady.first {trs : Nat → Option Translator} {q : RFISLEntry} {rest : List RFISLEntry}
    (h : NeighboursReady trs (q :: rest)) (hst : q.getStatus = .rfislActive) {d : Nat}
    (hd : q.dpId = some d) :
    ∃ tr, trs d = some tr ∧ (neighbourReads tr q → LinkReadable q) ∧
      NeighboursReady (Function.update trs d (some (afterIsl tr q))) rest := by
  obtain ⟨tr, htr⟩ := Option.isSome_iff_exists.mp (h.translators q List.mem_cons_self hst d hd)
  obtain ⟨hq, hrest⟩ := (neighboursReady_cons hst hd htr).mp h
  exact ⟨tr, htr, fun hreads => not_not.mp fun hno => hq ⟨hreads, hno⟩, hrest⟩

include hs in
theorem islRouteMods_ok (rm : RouteMod) (remotes : List RFISLEntry) (trs : Nat → Option Translator)
    (hl : LinkRows remotes) (ht : NeighboursReady trs remotes) :
    ∃ trs' rms, Server.islRouteMods o rf rm remotes trs = (trs', .ok rms) ∧
      (rms ≠ [] ↔ IslEmits o rf trs remotes) := by
  induction remotes generalizing trs with
  | nil => exact ⟨trs, [], rfl, by simp [IslEmits, SomeLink]⟩
  | cons q rest ih =>
    have hl' : LinkRows rest := fun r hr => hl r (List.mem_cons_of_mem _ hr)
    unfold Server.islRouteMods
    by_cases hst : q.getStatus = .rfislActive
    · obtain ⟨a, b, hn, hf⟩ := hl q List.mem_cons_self hst
      have hd : q.dpId = some a.dpId := ((RFISLEntry.near_eq_some _ _).mp hn).2.1
      obtain ⟨tr, htr, hread, ht'⟩ := ht.first hst hd
      obtain ⟨rms, hok, hne⟩ := handleIslRouteMod_ok hs (o := o) hn hf hread rm
      obtain ⟨trs', more, hmore, hmne⟩ := ih _ hl' ht'
      refine ⟨trs', rms ++ more, ?_, ?_⟩
      · simp only [hst, if_true, hd, htr, hok, hmore]
        rfl
      · rw [IslEmits, someLink_cons neighbourEmits_afterIsl hst hd htr, ← hne, ← IslEmits, ← hmne]
        simp only [ne_eq, List.append_eq_nil_iff]
        tauto
    · obtain ⟨trs', rms, hok, hne⟩ := ih trs hl' ((neighboursReady_cons_idle hst).mp ht)
      exact ⟨trs', rms, by simp only [hst, if_false, hok],
        by rw [IslEmits, someLink_cons_idle hst]; exact hne⟩

include hs in
theorem islRouteMods_error (rm : RouteMod) (remotes : List RFISLEntry) (trs : Nat → Option Translator)
    (hl : LinkRows remotes) (ht : ¬ NeighboursReady trs remotes) :
    ∃ trs' e, Server.islRouteMods o rf rm remotes trs = (trs', .error e) := by
  induction remotes generalizing trs with
  | nil => exact (ht ⟨fun r hr => absurd hr List.not_mem_nil, by simp [SomeLink]⟩).elim
  | cons q rest ih =>
    have hl' : LinkRows rest := fun r hr => hl r (List.mem_cons_of_mem _ hr)
    unfold Server.islRouteMods
    by_cases hst : q.getStatus = .rfislActive
    · obtain ⟨a, b, hn, hf⟩ := hl q List.mem_cons_self hst
      have hd : q.dpId = some a.dpId := ((RFISLEntry.near_eq_some _ _).mp hn).2.1
      cases htr : trs a.dpId with
      | none => exact ⟨trs, .keyError, by simp only [hst, if_true, hd, htr]⟩
      | some tr =>
        by_cases hraise : neighbourRaises tr q
        · obtain ⟨tr', e, herr⟩ := handleIslRouteMod_error o rf hraise.1 hraise.2 rm
          refine ⟨Function.update trs a.dpId (some tr'), e, ?_⟩
          simp only [hst, if_true, hd, htr, herr]
        · have hread : neighbourReads tr q → LinkReadable q := fun h => not_not.mp fun hno => hraise ⟨h, hno⟩
          obtain ⟨rms, hok, -⟩ := handleIslRouteMod_ok hs (o := o) hn hf hread rm
          obtain ⟨trs', e, herr⟩ := ih _ hl'
            fun hrest => ht ((neighboursReady_cons hst hd htr).mpr ⟨hraise, hrest⟩)
          refine ⟨trs', e, ?_⟩
          simp only [hst, if_true, hd, htr, hok, herr]
          rfl
    · obtain ⟨trs', e, herr⟩ := ih trs hl' fun hrest => ht ((neighboursReady_cons_idle hst).mpr hrest)
      exact ⟨trs', e, by simp only [hst, if_false, herr]⟩

end Neighbours

/-! ## Packets for the controller -/

section Controller

variable (cfg : Config) (o : Order) (tr : Translator)

def taggedPorts : List RFConfigEntry :=
  (RFConfig.getConfigForDp o cfg.config tr.ctId tr.dpId).map fun r => r.val

/-- A tagging rule can be made for each port: the RouteMod is not about one port already, the ports
have labels, and a link leads up. -/
def TagsReady (rm : RouteMod) : Prop :=
  rm.matchList.any Match.isInPort = false ∧ (∀ port ∈ taggedPorts cfg o tr, port.fpLabel ≠ none) ∧
    (taggedPorts cfg o tr = [] ∨ ∃ fp ∈ tr.fpEntries cfg o, tr.isUp fp = true)

variable {cfg o tr}

theorem portOn_ok {fp : FpEntry} (h : fp ∈ tr.fpEntries cfg o) : ∃ p, tr.portOn fp = .ok p := by
  unfold Translator.portOn
  rcases List.mem_append.mp h with h | h
  · obtain ⟨r, hr, rfl⟩ := List.mem_map.mp h
    have hr' := ((Table.mem_find _ _ _ _).mp hr).2
    simp only [Bool.and_eq_true, beq_iff_eq] at hr'
    exact ⟨_, if_pos ⟨hr'.2, hr'.1⟩⟩
  · obtain ⟨r, -, rfl⟩ := List.mem_map.mp h
    split <;> exact ⟨_, rfl⟩

theorem getFastpathPort_ok : ∃ mp, tr.getFastpathPort cfg o = .ok mp ∧
    (mp ≠ none ↔ ∃ fp ∈ tr.fpEntries cfg o, tr.isUp fp = true) := by
  unfold Translator.getFastpathPort
  split
  · rename_i hnil
    exact ⟨none, rfl, by simpa [List.filter_eq_nil_iff] using hnil⟩
  · rename_i master rest heq
    obtain ⟨hm, hup⟩ := List.mem_filter.mp (heq ▸ List.mem_cons_self : master ∈
      (tr.fpEntries cfg o).filter tr.isUp)
    obtain ⟨p, hp⟩ := portOn_ok hm
    refine ⟨some p, by rw [hp]; rfl, ?_⟩
    simp only [ne_eq, reduceCtorEq, not_false_eq_true, true_iff]
    exact ⟨master, hm, hup⟩

theorem tagRules_ok (mp : Option Nat) (rm : RouteMod) (ports : List RFConfigEntry)
    (hl : ∀ port ∈ ports, port.fpLabel ≠ none) (hmp : ports = [] ∨ mp ≠ none) :
    ∃ rms, Translator.tagRules mp rm ports = .ok rms ∧ (rms ≠ [] ↔ ports ≠ []) := by
  induction ports with
  | nil => exact ⟨[], rfl, by simp⟩
  | cons port rest ih =>
    obtain ⟨l, hlabel⟩ := Option.ne_none_iff_exists'.mp (hl port List.mem_cons_self)
    obtain ⟨p, rfl⟩ := Option.ne_none_iff_exists'.mp (hmp.resolve_left (by simp))
    obtain ⟨rms, hok, -⟩ := ih (fun x hx => hl x (List.mem_cons_of_mem _ hx)) (Or.inr (by simp))
    refine ⟨(rfactionPushMeta l (rm.addMatch (.inPort port.dpPort))).addAction (.output p) :: rms, ?_,
      by simp⟩
    unfold Translator.tagRules
    simp only [hlabel, Action.OUTPUT, hok]
    rfl

theorem tagRules_error (mp : Option Nat) (rm : RouteMod) (ports : List RFConfigEntry)
    (h : ¬ ((∀ port ∈ ports, port.fpLabel ≠ none) ∧ (ports = [] ∨ mp ≠ none))) :
    ∃ e, Translator.tagRules mp rm ports = .error e := by
  induction ports with
  | nil => simp at h
  | cons port rest ih =>
    unfold Translator.tagRules
    cases hlabel : port.fpLabel with
    | none => exact ⟨_, rfl⟩
    | some l =>
      cases mp with
      | none => exact ⟨_, rfl⟩
      | some p =>
        obtain ⟨e, he⟩ := ih (by simp_all)
        refine ⟨e, ?_⟩
        simp only [Action.OUTPUT, he]
        rfl

theorem mem_tagRules {mp : Option Nat} {rm : RouteMod} {ports : List RFConfigEntry} {rms : List RouteMod}
    (h : Translator.tagRules mp rm ports = .ok rms) {f : RouteMod} (hf : f ∈ rms) :
    ∃ port label act, f = (rfactionPushMeta label (rm.addMatch (.inPort port))).addAction act := by
  induction ports generalizing rms with
  | nil =>
    cases h
    cases hf
  | cons port rest ih =>
    unfold Translator.tagRules at h
    split at h
    · cases h
    · rename_i label hl
      obtain ⟨act, -, h⟩ := bind_eq_ok.mp h
      obtain ⟨more, hmore, h⟩ := bind_eq_ok.mp h
      cases h
      rcases List.mem_cons.mp hf with rfl | hf
      · exact ⟨port.dpPort, label, act, rfl⟩
      · exact ih hmore hf

/-- With fast paths, only a NoviFlow datapath can do without the labels. -/
def ControllerReady (cfg : Config) (o : Order) (tr : Translator) (rm : RouteMod) : Prop :=
  cfg.fpEnabled = true → tr.kind ≠ .noviFlow → TagsReady cfg o tr rm

def ControllerEmits (cfg : Config) (o : Order) (tr : Translator) : Prop :=
  cfg.fpEnabled = true → tr.kind ≠ .noviFlow → taggedPorts cfg o tr ≠ []

theorem noviFlowHandleControllerRouteMod_ne_nil (rm : RouteMod) :
    Translator.noviFlowHandleControllerRouteMod cfg rm ≠ [] := by
  unfold Translator.noviFlowHandleControllerRouteMod
  dsimp only
  split <;> simp

theorem defaultHandleControllerRouteMod_ok (rm : RouteMod)
    (h : cfg.fpEnabled = true → TagsReady cfg o tr rm) :
    ∃ rms, tr.defaultHandleControllerRouteMod cfg o rm = .ok rms ∧
      (rms ≠ [] ↔ (cfg.fpEnabled = true → taggedPorts cfg o tr ≠ [])) := by
  unfold Translator.defaultHandleControllerRouteMod
  by_cases hfp : cfg.fpEnabled = true
  · obtain ⟨hin, hl, hup⟩ := h hfp
    obtain ⟨mp, hmp, hne⟩ := @getFastpathPort_ok cfg o tr
    obtain ⟨rms, hok, hrms⟩ := tagRules_ok mp rm (taggedPorts cfg o tr) hl (hup.imp id hne.mpr)
    refine ⟨rms, ?_, by simpa [hfp] using hrms⟩
    simp only [hfp, if_true, hmp, bind, Except.bind, hin, Bool.false_eq_true, if_false]
    exact hok
  · exact ⟨_, by simp only [hfp]; rfl, by simp [hfp]⟩

theorem defaultHandleControllerRouteMod_error (rm : RouteMod) (hfp : cfg.fpEnabled = true)
    (h : ¬ TagsReady cfg o tr rm) : ∃ e, tr.defaultHandleControllerRouteMod cfg o rm = .error e := by
  unfold Translator.defaultHandleControllerRouteMod
  obtain ⟨mp, hmp, hne⟩ := @getFastpathPort_ok cfg o tr
  simp only [hfp, if_true, hmp, bind, Except.bind]
  split
  · exact ⟨_, rfl⟩
  · rename_i hany
    exact tagRules_error mp rm (taggedPorts cfg o tr) fun hok =>
      h ⟨by simpa using hany, hok.1, hok.2.imp id hne.mp⟩

theorem handleControllerRouteMod_ok (rm : RouteMod) (h : ControllerReady cfg o tr rm) :
    ∃ rms, tr.handleControllerRouteMod cfg o rm = .ok rms ∧ (rms ≠ [] ↔ ControllerEmits cfg o tr) := by
  unfold Translator.handleControllerRouteMod ControllerEmits
  cases hk : tr.kind with
  | default | satellite =>
    obtain ⟨rms, hok, hne⟩ := defaultHandleControllerRouteMod_ok (o := o) rm fun hfp => h hfp (by simp [hk])
    exact ⟨rms, hok, by simpa using hne⟩
  | noviFlow => exact ⟨_, rfl, by simp [noviFlowHandleControllerRouteMod_ne_nil]⟩

theorem handleControllerRouteMod_error (rm : RouteMod) (h : ¬ ControllerReady cfg o tr rm) :
    ∃ e, tr.handleControllerRouteMod cfg o rm = .error e := by
  unfold ControllerReady at h
  push Not at h
  obtain ⟨hfp, hk, hno⟩ := h
  obtain ⟨e, he⟩ := defaultHandleControllerRouteMod_error rm hfp hno
  unfold Translator.handleControllerRouteMod
  cases hkind : tr.kind with
  | default | satellite => exact ⟨e, he⟩
  | noviFlow => exact absurd hkind hk

end Controller

/-! ## register_route_mod -/

section RegisterRouteMod

variable (cfg : Config) (o : Order) (s : Server)

/-- The datapath port of the VM port, with the translator of its datapath. -/
def routeModTarget (rm : RouteMod) : Option (DpPort × Translator) :=
  (RFTable.getEntryByVmPort o s.rftable rm.id rm.vmPort).bind fun row =>
    row.val.dp.bind fun d => (s.routeModTranslator d.dpId).map fun tr => (d, tr)

def remoteLinks (d : DpPort) : List RFISLEntry :=
  (RFISLTable.getRemoteEntries o s.isltable (some d.ctId) (some d.dpId)).map fun r => r.val

/-- The translators are there, and can make their RouteMods. -/
def Translates (d : DpPort) (tr : Translator) (rm : RouteMod) : Prop :=
  match rm.mod with
  | .controller => ControllerReady cfg o tr rm
  | .add | .delete => RouteReadable tr s.isltable d ∧ NeighboursReady s.routeModTranslator (remoteLinks o s d)
  | _ => True

/-- The VM port has a datapath, the datapath and its active neighbours are configured, `ether_to_bin`
takes the addresses of links that they read, and with fast paths the labels are there. -/
def Handled (rm : RouteMod) : Prop :=
  ∃ d tr, routeModTarget o s rm = some (d, tr) ∧ Translates cfg o s d tr rm

def EmitsFor (d : DpPort) (tr : Translator) (rm : RouteMod) : Prop :=
  match rm.mod with
  | .controller => ControllerEmits cfg o tr
  | .add | .delete =>
    (∃ e ∈ localPorts o s.rftable s.isltable d, e.eligible (some d.dpPort) = true) ∨
      IslEmits o s.rftable s.routeModTranslator (remoteLinks o s d)
  | _ => False

/-- At least one RouteMod leaves the handler. -/
def Emits (rm : RouteMod) : Prop :=
  ∃ d tr, routeModTarget o s rm = some (d, tr) ∧ EmitsFor cfg o s d tr rm

variable {cfg o s}

theorem routeModTarget_eq_some {rm : RouteMod} {d : DpPort} {tr : Translator} :
    routeModTarget o s rm = some (d, tr) ↔ ∃ row,
      RFTable.getEntryByVmPort o s.rftable rm.id rm.vmPort = some row ∧
      row.val.dp = some d ∧ s.routeModTranslator d.dpId = some tr := by
  simp only [routeModTarget, Option.bind_eq_some_iff, Option.map_eq_some_iff, Prod.mk.injEq]
  constructor
  · rintro ⟨row, hrow, d', hd, tr', htr, rfl, rfl⟩
    exact ⟨row, hrow, hd, htr⟩
  · rintro ⟨row, hrow, hd, htr⟩
    exact ⟨row, hrow, d, hd, tr, htr, rfl, rfl⟩

theorem remoteLinks_linkRows (hi : IslShaped s.isltable) (d : DpPort) : LinkRows (remoteLinks o s d) := by
  intro r hr hst
  obtain ⟨row, hrow, rfl⟩ := List.mem_map.mp hr
  obtain ⟨hm, hp⟩ := (Table.mem_find _ _ _ _).mp hrow
  obtain ⟨⟨v, n, f⟩, hsh⟩ := hi row hm
  rw [hsh] at hst hp ⊢
  rw [RFISLShape.entry_status] at hst
  cases f with
  | none => simp [RFISLShape.entry] at hp
  | some b =>
    cases n with
    | none => simp [RFISLShape.status] at hst
    | some a => exact ⟨a, b, by simp, by simp⟩

variable (hs : RFShaped s.rftable) (hi : IslShaped s.isltable)

include hs hi in
theorem translate_ok {entry : RFEntry} {d : DpPort} {tr : Translator} {rm : RouteMod} (hd : entry.dp = some d)
    (h : Translates cfg o s d tr rm) (id : Nat) :
    ∃ trs rms, Server.translate cfg o s entry tr (rm.setId id) = (trs, .ok rms) ∧
      (rms ≠ [] ↔ EmitsFor cfg o s d tr rm) := by
  obtain ⟨hc, hid, -⟩ := (RFEntry.dp_eq_some _ _).mp hd
  have both : RouteReadable tr s.isltable d ∧ NeighboursReady s.routeModTranslator (remoteLinks o s d) →
      ∃ rm' rms trs more,
      tr.handleRouteMod o s.rftable s.isltable entry (rm.setId id) = .ok (rm', rms) ∧
      Server.islRouteMods o s.rftable rm' (remoteLinks o s d) s.routeModTranslator = (trs, .ok more) ∧
      (rms ++ more ≠ [] ↔ ((∃ e ∈ localPorts o s.rftable s.isltable d, e.eligible (some d.dpPort) = true) ∨
        IslEmits o s.rftable s.routeModTranslator (remoteLinks o s d))) := by
    rintro ⟨hread, ht⟩
    obtain ⟨rm', rms, hok, hne⟩ := handleRouteMod_ok hs hi (o := o) hd hread (rm.setId id)
    obtain ⟨trs, more, hmore, hmne⟩ := islRouteMods_ok hs (o := o) rm' (remoteLinks o s d)
      s.routeModTranslator
      (remoteLinks_linkRows hi d) ht
    refine ⟨rm', rms, trs, more, hok, hmore, ?_⟩
    rw [← hne, ← hmne]
    simp only [ne_eq, List.append_eq_nil_iff]
    tauto
  have hmod : (rm.setId id).mod = rm.mod := rfl
  unfold Server.translate EmitsFor
  unfold Translates at h
  rw [hmod]
  cases hm : rm.mod with
  | controller =>
    rw [hm] at h
    obtain ⟨rms, hok, hne⟩ := @handleControllerRouteMod_ok _ _ tr (rm.setId id) h
    exact ⟨s.routeModTranslator, rms, by rw [hok], hne⟩
  | add | delete =>
    rw [hm] at h
    obtain ⟨rm', rms, trs, more, hok, hmore, hne⟩ := both h
    refine ⟨trs, rms ++ more, ?_, hne⟩
    simp only [remoteLinks] at hmore
    simp only [hok, hc, hid, hmore]
    rfl
  | addGroup | deleteGroup | unknown _ => exact ⟨s.routeModTranslator, [], rfl, by simp⟩

include hs hi in
theorem translate_error {entry : RFEntry} {d : DpPort} {tr : Translator} {rm : RouteMod}
    (hd : entry.dp = some d) (h : ¬ Translates cfg o s d tr rm) (id : Nat) :
    ∃ trs e, Server.translate cfg o s entry tr (rm.setId id) = (trs, .error e) := by
  obtain ⟨hc, hid, -⟩ := (RFEntry.dp_eq_some _ _).mp hd
  have hmod : (rm.setId id).mod = rm.mod := rfl
  unfold Server.translate
  unfold Translates at h
  rw [hmod]
  cases hm : rm.mod with
  | controller =>
    rw [hm] at h
    obtain ⟨e, he⟩ := @handleControllerRouteMod_error _ _ tr (rm.setId id) h
    exact ⟨s.routeModTranslator, e, by rw [he]⟩
  | add | delete =>
    rw [hm] at h
    by_cases hread : RouteReadable tr s.isltable d
    · obtain ⟨rm', rms, hok, -⟩ := handleRouteMod_ok hs hi (o := o) hd hread (rm.setId id)
      obtain ⟨trs, e, he⟩ := islRouteMods_error hs (o := o) rm' (remoteLinks o s d) s.routeModTranslator
        (remoteLinks_linkRows hi d) fun ht => h ⟨hread, ht⟩
      refine ⟨trs, e, ?_⟩
      simp only [remoteLinks] at he
      simp only [hok, hc, hid, he]
      rfl
    · obtain ⟨e, he⟩ := handleRouteMod_error o s.rftable hi hd hread (rm.setId id)
      exact ⟨s.routeModTranslator, e, by simp only [he]⟩
  | addGroup | deleteGroup | unknown _ =>
    rw [hm] at h
    exact absurd trivial h

def routemodAck (rm : RouteMod) : Nat × PortConfig := (rm.id, ⟨rm.id, rm.vmPort, .routemodAck⟩)

theorem status_ne_idleVm {e : RFEntry} (hsh : ∃ sh : RFShape, e = sh.entry) {d : DpPort}
    (hd : e.dp = some d) :
    e.getStatus ≠ .rfentryIdleVmPort := by
  obtain ⟨sh, rfl⟩ := hsh
  rw [RFShape.entry_dp] at hd
  rw [RFShape.entry_status]
  cases sh <;> simp_all [RFShape.dp, RFShape.status]

include hs hi in
theorem registerRouteMod_handled {rm : RouteMod} (h : Handled cfg o s rm) :
    ∃ trs c, ∃ rms : List RouteMod, Server.registerRouteMod cfg o s rm =
      ({ s with routeModTranslator := trs, dpQ := s.dpQ ++ rms.map (fun rm => (c, rm.addOption (.ctId c))),
                ackQ := s.ackQ ++ [routemodAck rm] }, .ok ()) ∧ (rms ≠ [] ↔ Emits cfg o s rm) := by
  obtain ⟨d, tr, htarget, htrans⟩ := h
  obtain ⟨row, hrow, hd, htr⟩ := routeModTarget_eq_some.mp htarget
  obtain ⟨hc, hid, -⟩ := (RFEntry.dp_eq_some _ _).mp hd
  have hst := status_ne_idleVm (hs row (RFTable.getEntryByVmPort_some hrow).1) hd
  obtain ⟨trs, rms, hok, hne⟩ := translate_ok hs hi hd htrans d.dpId
  refine ⟨trs, d.ctId, rms, ?_, ?_⟩
  · unfold Server.registerRouteMod
    simp only [hrow, hid, htr, hst, if_false, hok, hc, Server.sendRouteMods_eq]
    rfl
  · rw [hne]
    constructor
    · intro he
      exact ⟨d, tr, htarget, he⟩
    · rintro ⟨d', tr', htarget', he⟩
      rw [htarget, Option.some.injEq, Prod.mk.injEq] at htarget'
      obtain ⟨rfl, rfl⟩ := htarget'
      exact he

include hs hi in
theorem registerRouteMod_not_handled {rm : RouteMod} (h : ¬ Handled cfg o s rm) :
    ∃ trs e, Server.registerRouteMod cfg o s rm = ({ s with routeModTranslator := trs }, .error e) := by
  unfold Server.registerRouteMod
  split
  · exact ⟨s.routeModTranslator, _, rfl⟩
  · rename_i row hrow
    dsimp only
    split
    · exact ⟨s.routeModTranslator, _, rfl⟩
    · rename_i id hid
      obtain ⟨d, hd⟩ : ∃ d, row.val.dp = some d := by
        obtain ⟨sh, hsh⟩ := hs row (RFTable.getEntryByVmPort_some hrow).1
        rw [hsh] at hid ⊢
        rw [RFShape.entry_dp]
        cases sh <;> simp_all [RFShape.entry, RFShape.dp]
      have hst := status_ne_idleVm (hs row (RFTable.getEntryByVmPort_some hrow).1) hd
      split
      · exact ⟨s.routeModTranslator, _, rfl⟩
      · rename_i tr htr
        obtain rfl : id = d.dpId := by
          rw [((RFEntry.dp_eq_some _ _).mp hd).2.1, Option.some.injEq] at hid
          exact hid.symm
        have hno : ¬ Translates cfg o s d tr rm := fun ht =>
          h ⟨d, tr, routeModTarget_eq_some.mpr ⟨row, hrow, hd, htr⟩, ht⟩
        obtain ⟨trs, e, he⟩ := translate_error hs hi hd hno d.dpId
        rw [if_neg hst, he]
        exact ⟨trs, e, rfl⟩

end RegisterRouteMod

end RouteFlow
