import RouteFlow.Server

/-!
# The shapes of table rows

`get_status` infers what a row is from the fields that are set. A shape says it outright, with the
values that belong to it. `Shaped` rows are the ones the server ever stores.
-/

namespace RouteFlow

/-! ## Ports -/

@[ext]

structure VmPort where
  vmId : Nat
  vmPort : Nat
deriving DecidableEq

@[ext]

structure DpPort where
  ctId : Nat
  dpId : Nat
  dpPort : Nat
deriving DecidableEq

def RFConfigEntry.vm (c : RFConfigEntry) : VmPort := ⟨c.vmId, c.vmPort⟩
def RFConfigEntry.dp (c : RFConfigEntry) : DpPort := ⟨c.ctId, c.dpId, c.dpPort⟩

/-! ## RFTable rows -/

namespace RFEntry

def vm (e : RFEntry) : Option VmPort :=
  match e.vmId, e.vmPort with
  | some v, some p => some ⟨v, p⟩
  | _, _ => none

def dp (e : RFEntry) : Option DpPort :=
  match e.ctId, e.dpId, e.dpPort with
  | some c, some d, some p => some ⟨c, d, p⟩
  | _, _, _ => none

end RFEntry

/-- A datapath that goes down leaves an empty row behind for each of its idle ports. -/
inductive RFShape where
  | empty
  | idleVm (v : VmPort) (eth : Mac)
  | idleDp (d : DpPort)
  | associated (v : VmPort) (eth : Mac) (d : DpPort)
  | active (v : VmPort) (eth : Mac) (d : DpPort) (vsId vsPort : Nat)
deriving DecidableEq

namespace RFShape

/-- The entry that a shape stands for. -/
def entry : RFShape → RFEntry
  | empty => {}
  | idleVm v eth => { vmId := some v.vmId, vmPort := some v.vmPort, ethAddr := some eth }
  | idleDp d => { ctId := some d.ctId, dpId := some d.dpId, dpPort := some d.dpPort }
  | associated v eth d =>
    { vmId := some v.vmId, vmPort := some v.vmPort, ctId := some d.ctId, dpId := some d.dpId,
      dpPort := some d.dpPort, ethAddr := some eth }
  | active v eth d vsId vsPort =>
    { vmId := some v.vmId, vmPort := some v.vmPort, ctId := some d.ctId, dpId := some d.dpId,
      dpPort := some d.dpPort, vsId := some vsId, vsPort := some vsPort, ethAddr := some eth }

def vm : RFShape → Option VmPort
  | idleVm v _ | associated v _ _ | active v _ _ _ _ => some v
  | _ => none

def dp : RFShape → Option DpPort
  | idleDp d | associated _ _ d | active _ _ d _ _ => some d
  | _ => none

def eth : RFShape → Option Mac
  | idleVm _ m | associated _ m _ | active _ m _ _ _ => some m
  | _ => none

/-- What a row becomes when its datapath goes down. -/
def down : RFShape → RFShape
  | idleVm v eth | associated v eth _ | active v eth _ _ _ => idleVm v eth
  | _ => empty

/-- What `get_status` reports. An empty row counts as associated. -/
def status : RFShape → Status
  | idleVm _ _ => .rfentryIdleVmPort
  | idleDp _ => .rfentryIdleDpPort
  | empty | associated _ _ _ => .rfentryAssociated
  | active _ _ _ _ _ => .rfentryActive

@[simp] theorem entry_vm (sh : RFShape) : sh.entry.vm = sh.vm := by cases sh <;> rfl
@[simp] theorem entry_dp (sh : RFShape) : sh.entry.dp = sh.dp := by cases sh <;> rfl
@[simp] theorem entry_eth (sh : RFShape) : sh.entry.ethAddr = sh.eth := by cases sh <;> rfl
@[simp] theorem entry_status (sh : RFShape) : sh.entry.getStatus = sh.status := by cases sh <;> rfl

theorem entry_makeIdle (sh : RFShape) : sh.entry.makeIdle .rfentryIdleVmPort = sh.down.entry := by
  cases sh <;> rfl

theorem associate_vm (d : DpPort) (v p : Nat) (m : Mac) :
    (idleDp d).entry.associate v p none (some m) = .ok (associated ⟨v, p⟩ m d).entry := rfl

theorem associate_dp (v : VmPort) (m : Mac) (c d p : Nat) :
    (idleVm v m).entry.associate d p (some c) none = .ok (associated v m ⟨c, d, p⟩).entry := rfl

theorem entry_activate (v : VmPort) (m : Mac) (d : DpPort) (vsId vsPort : Nat) :
    (associated v m d).entry.activate vsId vsPort = (active v m d vsId vsPort).entry := rfl

theorem entry_injective : Function.Injective entry := by
  intro a b h
  cases a <;> cases b <;> simp_all [entry, VmPort.ext_iff, DpPort.ext_iff]

/-! Each status but one has a single shape. -/

theorem eq_idleVm_of_status {sh : RFShape} (h : sh.status = .rfentryIdleVmPort) :
    ∃ v m, sh = idleVm v m := by
  cases sh <;> simp_all [status]

theorem eq_idleDp_of_status {sh : RFShape} (h : sh.status = .rfentryIdleDpPort) :
    ∃ d, sh = idleDp d := by
  cases sh <;> simp_all [status]

theorem eq_active_of_status {sh : RFShape} (h : sh.status = .rfentryActive) :
    ∃ v m d vsId vsPort, sh = active v m d vsId vsPort := by
  cases sh <;> simp_all [status]

theorem eq_associated_of_status {sh : RFShape} {v : VmPort} (hv : sh.vm = some v)
    (h : sh.status = .rfentryAssociated) : ∃ m d, sh = associated v m d := by
  cases sh <;> simp_all [status, vm]

end RFShape

/-- Each row has one of the shapes. -/
def RFShaped (t : RFTable) : Prop := ∀ r ∈ t.rows, ∃ sh : RFShape, r.val = sh.entry

/-! ## Lookups by port -/

theorem RFEntry.vm_eq_some (e : RFEntry) (v : VmPort) :
    e.vm = some v ↔ e.vmId = some v.vmId ∧ e.vmPort = some v.vmPort := by
  unfold RFEntry.vm
  split <;> simp_all [VmPort.ext_iff]

theorem RFEntry.dp_eq_some (e : RFEntry) (d : DpPort) :
    e.dp = some d ↔ e.ctId = some d.ctId ∧ e.dpId = some d.dpId ∧ e.dpPort = some d.dpPort := by
  unfold RFEntry.dp
  split <;> simp_all [DpPort.ext_iff]

namespace RFTable

open Store

variable {o : Order} {t : RFTable}

theorem getEntryByVmPort_some {v p : Nat} {r : Row RFEntry} (h : getEntryByVmPort o t v p = some r) :
    r ∈ t.rows ∧ r.val.vm = some ⟨v, p⟩ := by
  obtain ⟨hr, hp⟩ := Table.first_some h
  exact ⟨hr, (RFEntry.vm_eq_some _ _).mpr (by simpa using hp)⟩

theorem getEntryByVmPort_none {v p : Nat} :
    getEntryByVmPort o t v p = none ↔ ∀ r ∈ t.rows, r.val.vm ≠ some ⟨v, p⟩ := by
  rw [getEntryByVmPort, Table.first_none]
  apply forall₂_congr
  intro r _
  rw [ne_eq, RFEntry.vm_eq_some, ← Bool.not_eq_true]
  simp

theorem getEntryByDpPort_some {c d p : Nat} {r : Row RFEntry}
    (h : getEntryByDpPort o t (some c) (some d) (some p) = some r) :
    r ∈ t.rows ∧ r.val.dp = some ⟨c, d, p⟩ := by
  obtain ⟨hr, hp⟩ := Table.first_some h
  exact ⟨hr, (RFEntry.dp_eq_some _ _).mpr (by simpa using hp)⟩

theorem getEntryByDpPort_none {c d p : Nat} :
    getEntryByDpPort o t (some c) (some d) (some p) = none ↔ ∀ r ∈ t.rows, r.val.dp ≠ some ⟨c, d, p⟩ := by
  rw [getEntryByDpPort, Table.first_none]
  apply forall₂_congr
  intro r _
  rw [ne_eq, RFEntry.dp_eq_some, ← Bool.not_eq_true]
  simp

end RFTable

namespace RFConfig

open Store

variable {o : Order} {t : RFConfig}

theorem getConfigForVmPort_some {v p : Nat} {c : Row RFConfigEntry}
    (h : getConfigForVmPort o t v p = some c) : c ∈ t.rows ∧ c.val.vm = ⟨v, p⟩ := by
  obtain ⟨hc, hp⟩ := Table.first_some h
  exact ⟨hc, VmPort.ext_iff.mpr (by simpa [RFConfigEntry.vm] using hp)⟩

theorem getConfigForVmPort_none {v p : Nat} :
    getConfigForVmPort o t v p = none ↔ ∀ c ∈ t.rows, c.val.vm ≠ ⟨v, p⟩ := by
  rw [getConfigForVmPort, Table.first_none]
  apply forall₂_congr
  intro c _
  rw [ne_eq, VmPort.ext_iff, ← Bool.not_eq_true]
  simp [RFConfigEntry.vm]

theorem getConfigForDpPort_some {c d p : Nat} {r : Row RFConfigEntry}
    (h : getConfigForDpPort o t c d p = some r) : r ∈ t.rows ∧ r.val.dp = ⟨c, d, p⟩ := by
  obtain ⟨hr, hp⟩ := Table.first_some h
  exact ⟨hr, DpPort.ext_iff.mpr (by simpa [RFConfigEntry.dp, and_assoc] using hp)⟩

theorem getConfigForDpPort_none {c d p : Nat} :
    getConfigForDpPort o t c d p = none ↔ ∀ r ∈ t.rows, r.val.dp ≠ ⟨c, d, p⟩ := by
  rw [getConfigForDpPort, Table.first_none]
  apply forall₂_congr
  intro r _
  rw [ne_eq, DpPort.ext_iff, ← Bool.not_eq_true]
  simp [RFConfigEntry.dp, and_assoc]

end RFConfig

/-! ## RFISLTable rows -/

/-- One end of a link: the port and its address. -/
@[ext]
structure IslEnd where
  ctId : Nat
  dpId : Nat
  dpPort : Nat
  ethAddr : Text
deriving DecidableEq

def IslEnd.port (a : IslEnd) : DpPort := ⟨a.ctId, a.dpId, a.dpPort⟩

/-- The address of the end in RouteMods. -/
def IslEnd.mac (a : IslEnd) : Mac := ethMac a.ethAddr

def RFISLConfEntry.near (c : RFISLConfEntry) : IslEnd := ⟨c.ctId, c.dpId, c.dpPort, c.ethAddr⟩
def RFISLConfEntry.far (c : RFISLConfEntry) : IslEnd := ⟨c.remCt, c.remId, c.remPort, c.remEthAddr⟩

namespace RFISLEntry

/-- The end of the entry that is its own. -/
def near (e : RFISLEntry) : Option IslEnd :=
  match e.ctId, e.dpId, e.dpPort, e.ethAddr with
  | some c, some d, some p, some m => some ⟨c, d, p, m⟩
  | _, _, _, _ => none

/-- The other end of the entry. -/
def far (e : RFISLEntry) : Option IslEnd :=
  match e.remCt, e.remId, e.remPort, e.remEthAddr with
  | some c, some d, some p, some m => some ⟨c, d, p, m⟩
  | _, _, _, _ => none

theorem near_eq_some (e : RFISLEntry) (a : IslEnd) : e.near = some a ↔
    e.ctId = some a.ctId ∧ e.dpId = some a.dpId ∧ e.dpPort = some a.dpPort ∧ e.ethAddr = some a.ethAddr := by
  unfold near
  split <;> simp_all [IslEnd.ext_iff]

theorem far_eq_some (e : RFISLEntry) (a : IslEnd) : e.far = some a ↔
    e.remCt = some a.ctId ∧ e.remId = some a.dpId ∧ e.remPort = some a.dpPort ∧
      e.remEthAddr = some a.ethAddr := by
  unfold far
  split <;> simp_all [IslEnd.ext_iff]

end RFISLEntry

/-- Each end is there with all of its fields or not at all. -/
@[ext]
structure RFISLShape where
  vmId : Option Nat
  near : Option IslEnd
  far : Option IslEnd
deriving DecidableEq

namespace RFISLShape

def entry (sh : RFISLShape) : RFISLEntry where
  vmId := sh.vmId
  ctId := sh.near.map IslEnd.ctId
  dpId := sh.near.map IslEnd.dpId
  dpPort := sh.near.map IslEnd.dpPort
  ethAddr := sh.near.map IslEnd.ethAddr
  remCt := sh.far.map IslEnd.ctId
  remId := sh.far.map IslEnd.dpId
  remPort := sh.far.map IslEnd.dpPort
  remEthAddr := sh.far.map IslEnd.ethAddr

@[simp] theorem entry_near (sh : RFISLShape) : sh.entry.near = sh.near := by
  obtain ⟨v, _ | a, b⟩ := sh <;> rfl

@[simp] theorem entry_far (sh : RFISLShape) : sh.entry.far = sh.far := by
  obtain ⟨v, a, _ | b⟩ := sh <;> rfl

theorem entry_injective : Function.Injective entry := by
  intro x y h
  have hn := congrArg RFISLEntry.near h
  have hf := congrArg RFISLEntry.far h
  rw [entry_near, entry_near] at hn
  rw [entry_far, entry_far] at hf
  exact RFISLShape.ext (congrArg RFISLEntry.vmId h) hn hf

/-- Rows with both ends or with none count as active. -/
def status (sh : RFISLShape) : Status :=
  match sh.near, sh.far with
  | some _, none => .rfislIdleDpPort
  | none, some _ => .rfislIdleRemote
  | _, _ => .rfislActive

@[simp] theorem entry_status (sh : RFISLShape) : sh.entry.getStatus = sh.status := by
  obtain ⟨v, _ | a, _ | b⟩ := sh <;> rfl

/-- The missing end is filled in. -/
def join (sh : RFISLShape) (a : IslEnd) : RFISLShape :=
  match sh.near, sh.far with
  | some _, none => { sh with far := some a }
  | none, some _ => { sh with near := some a }
  | _, _ => sh

theorem entry_associate (sh : RFISLShape) (a : IslEnd) :
    sh.entry.associate a.ctId a.dpId a.dpPort a.ethAddr = (sh.join a).entry := by
  obtain ⟨v, _ | x, _ | y⟩ := sh <;> rfl

end RFISLShape

/-- Each row has both fields of an end or none. -/
def IslShaped (t : RFISLTable) : Prop := ∀ r ∈ t.rows, ∃ sh : RFISLShape, r.val = sh.entry

namespace RFISLTable

open Store

variable {o : Order} {t : RFISLTable}

theorem getEntryByAddr_some {a : IslEnd} {r : Row RFISLEntry}
    (h : getEntryByAddr o t a.ctId a.dpId a.dpPort a.ethAddr = some r) :
    r ∈ t.rows ∧ r.val.near = some a := by
  obtain ⟨hr, hp⟩ := Table.first_some h
  exact ⟨hr, (RFISLEntry.near_eq_some _ _).mpr (by simpa [and_assoc] using hp)⟩

theorem getEntryByAddr_none {a : IslEnd} :
    getEntryByAddr o t a.ctId a.dpId a.dpPort a.ethAddr = none ↔ ∀ r ∈ t.rows, r.val.near ≠ some a := by
  rw [getEntryByAddr, Table.first_none]
  apply forall₂_congr
  intro r _
  rw [ne_eq, RFISLEntry.near_eq_some, ← Bool.not_eq_true]
  simp [and_assoc]

theorem getEntryByRemote_some {a : IslEnd} {r : Row RFISLEntry}
    (h : getEntryByRemote o t (some a.ctId) (some a.dpId) (some a.dpPort) (some a.ethAddr) = some r) :
    r ∈ t.rows ∧ r.val.far = some a := by
  obtain ⟨hr, hp⟩ := Table.first_some h
  exact ⟨hr, (RFISLEntry.far_eq_some _ _).mpr (by simpa [and_assoc] using hp)⟩

end RFISLTable

end RouteFlow
