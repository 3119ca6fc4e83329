import RouteFlow.Lib.Store
import RouteFlow.EthAddr

/-!
# The tables of RFServer

`rftable.py` over `MemoryTable.py`. A field that Python leaves at `None` is an `Option`, and so is an
attribute that `rffastpath.py` sets later on.
-/

namespace RouteFlow

open Store

/-- The numbers that `get_status` returns, for both kinds of rows. -/
inductive Status where
  | rfentryIdleVmPort | rfentryIdleDpPort | rfentryAssociated | rfentryActive
  | rfislIdleDpPort | rfislIdleRemote | rfislActive
deriving DecidableEq, Repr

/-- `MemoryTable.__init__`: the first id is 1001. -/
def memoryTable (ρ : Type) : Table ρ := Table.empty 1000

/-- `set_entry` of an entry that was read as row `id`, or of a new one. -/
def setEntry {ρ : Type} (t : Table ρ) (id : Option Nat) (e : ρ) : Table ρ :=
  match id with
  | none => t.add e
  | some i => t.put i e

/-! ## RFTable -/

/-- The fields of `RFEntry`. The constructor leaves them `None`. -/
structure RFEntry where
  vmId : Option Nat := none
  vmPort : Option Nat := none
  ctId : Option Nat := none
  dpId : Option Nat := none
  dpPort : Option Nat := none
  vsId : Option Nat := none
  vsPort : Option Nat := none
  ethAddr : Option Mac := none
deriving DecidableEq

namespace RFEntry

def isIdleVmPort (e : RFEntry) : Bool :=
  e.vmId.isSome && e.vmPort.isSome && e.ctId.isNone && e.dpId.isNone && e.dpPort.isNone &&
    e.vsId.isNone && e.vsPort.isNone

def isIdleDpPort (e : RFEntry) : Bool :=
  e.vmId.isNone && e.vmPort.isNone && e.ctId.isSome && e.dpId.isSome && e.dpPort.isSome &&
    e.vsId.isNone && e.vsPort.isNone

def makeIdle (e : RFEntry) : Status → RFEntry
  | .rfentryIdleVmPort =>
    { e with ctId := none, dpId := none, dpPort := none, vsId := none, vsPort := none }
  | .rfentryIdleDpPort =>
    { e with vmId := none, vmPort := none, vsId := none, vsPort := none, ethAddr := none }
  | _ => e

/-- `RFEntry.associate`, which raises for an entry that is not idle. -/
def associate (e : RFEntry) (id port : Nat) (ctId : Option Nat) (ethAddr : Option Mac) :
    Except PyErr RFEntry :=
  if e.isIdleVmPort then .ok { e with ctId := ctId, dpId := some id, dpPort := some port }
  else if e.isIdleDpPort then .ok { e with vmId := some id, vmPort := some port, ethAddr := ethAddr }
  else .error .valueError

def activate (e : RFEntry) (vsId vsPort : Nat) : RFEntry :=
  { e with vsId := some vsId, vsPort := some vsPort }

/-- `RFEntry.get_status`. An entry that is nothing else counts as associated. -/
def getStatus (e : RFEntry) : Status :=
  if e.isIdleVmPort then .rfentryIdleVmPort
  else if e.isIdleDpPort then .rfentryIdleDpPort
  else if e.vsId.isNone && e.vsPort.isNone then .rfentryAssociated
  else .rfentryActive

end RFEntry

abbrev RFTable := Table RFEntry

namespace RFTable

def getEntryByVmPort (o : Order) (t : RFTable) (vmId vmPort : Nat) : Option (Row RFEntry) :=
  t.first o fun e => e.vmId == some vmId && e.vmPort == some vmPort

/-- The arguments are those of a row in `set_dp_down`, so they may be `None`. -/
def getEntryByDpPort (o : Order) (t : RFTable) (ctId dpId dpPort : Option Nat) : Option (Row RFEntry) :=
  t.first o fun e => decide ((e.ctId, e.dpId, e.dpPort) = (ctId, dpId, dpPort))

def getEntryByVsPort (o : Order) (t : RFTable) (vsId vsPort : Nat) : Option (Row RFEntry) :=
  t.first o fun e => e.vsId == some vsId && e.vsPort == some vsPort

def getDpEntries (o : Order) (t : RFTable) (ctId dpId : Nat) : List (Row RFEntry) :=
  t.find o fun e => e.ctId == some ctId && e.dpId == some dpId

def isDpRegistered (o : Order) (t : RFTable) (ctId dpId : Nat) : Bool :=
  !(getDpEntries o t ctId dpId).isEmpty

end RFTable

/-! ## RFISLTable -/

/-- The fields of `RFISLEntry`. The addresses are texts. -/
structure RFISLEntry where
  vmId : Option Nat := none
  ctId : Option Nat := none
  dpId : Option Nat := none
  dpPort : Option Nat := none
  ethAddr : Option Text := none
  remCt : Option Nat := none
  remId : Option Nat := none
  remPort : Option Nat := none
  remEthAddr : Option Text := none
deriving DecidableEq

namespace RFISLEntry

def makeIdle (e : RFISLEntry) : Status → RFISLEntry
  | .rfislIdleRemote => { e with ctId := none, dpId := none, dpPort := none, ethAddr := none }
  | .rfislIdleDpPort => { e with remCt := none, remId := none, remPort := none, remEthAddr := none }
  | _ => e

def isIdleDpPort (e : RFISLEntry) : Bool :=
  e.ctId.isSome && e.dpId.isSome && e.dpPort.isSome &&
    e.remCt.isNone && e.remId.isNone && e.remPort.isNone

def isIdleRemote (e : RFISLEntry) : Bool :=
  e.ctId.isNone && e.dpId.isNone && e.dpPort.isNone &&
    e.remCt.isSome && e.remId.isSome && e.remPort.isSome

/-- `RFISLEntry.associate`: the missing end is filled in. -/
def associate (e : RFISLEntry) (ct id port : Nat) (ethAddr : Text) : RFISLEntry :=
  if e.isIdleDpPort then
    { e with remCt := some ct, remId := some id, remPort := some port, remEthAddr := some ethAddr }
  else if e.isIdleRemote then
    { e with ctId := some ct, dpId := some id, dpPort := some port, ethAddr := some ethAddr }
  else e

def getStatus (e : RFISLEntry) : Status :=
  if e.isIdleDpPort then .rfislIdleDpPort
  else if e.isIdleRemote then .rfislIdleRemote
  else .rfislActive

end RFISLEntry

abbrev RFISLTable := Table RFISLEntry

namespace RFISLTable

def getEntryByAddr (o : Order) (t : RFISLTable) (ctId dpId dpPort : Nat) (ethAddr : Text) :
    Option (Row RFISLEntry) :=
  t.first o fun e => e.ctId == some ctId && e.dpId == some dpId && e.dpPort == some dpPort &&
    e.ethAddr == some ethAddr

def getEntryByRemote (o : Order) (t : RFISLTable) (remCt remId remPort : Option Nat)
    (remEthAddr : Option Text) : Option (Row RFISLEntry) :=
  t.first o fun e => e.remCt == remCt && e.remId == remId && e.remPort == remPort &&
    e.remEthAddr == remEthAddr

def getDpEntries (o : Order) (t : RFISLTable) (ctId dpId : Nat) : List (Row RFISLEntry) :=
  t.find o fun e => e.ctId == some ctId && e.dpId == some dpId

/-- The rows whose other end is on the datapath. -/
def getRemoteEntries (o : Order) (t : RFISLTable) (remCt remId : Option Nat) : List (Row RFISLEntry) :=
  t.find o fun e => e.remCt == remCt && e.remId == remId

def isDpRegistered (o : Order) (t : RFISLTable) (ctId dpId : Nat) : Bool :=
  !(getDpEntries o t ctId dpId).isEmpty

end RFISLTable

/-! ## The configuration tables -/

structure RFConfigEntry where
  vmId : Nat
  vmPort : Nat
  ctId : Nat
  dpId : Nat
  dpPort : Nat
  fpLabel : Option Nat := none
deriving DecidableEq

abbrev RFConfig := Table RFConfigEntry

namespace RFConfig

def getConfigForVmPort (o : Order) (t : RFConfig) (vmId vmPort : Nat) : Option (Row RFConfigEntry) :=
  t.first o fun c => c.vmId == vmId && c.vmPort == vmPort

def getConfigForDpPort (o : Order) (t : RFConfig) (ctId dpId dpPort : Nat) : Option (Row RFConfigEntry) :=
  t.first o fun c => c.ctId == ctId && c.dpId == dpId && c.dpPort == dpPort

/-- Python returns `None` for an empty list. All callers turn it back into one. -/
def getConfigForDp (o : Order) (t : RFConfig) (ctId dpId : Nat) : List (Row RFConfigEntry) :=
  t.find o fun c => c.ctId == ctId && c.dpId == dpId

end RFConfig

/-- `fast_paths` and `fp_master` are attributes that `rffastpath.py` adds. No reader tells an unset
`fp_master` from one that is `None`. -/
structure RFISLConfEntry where
  vmId : Nat
  ctId : Nat
  dpId : Nat
  dpPort : Nat
  ethAddr : Text
  remCt : Nat
  remId : Nat
  remPort : Nat
  remEthAddr : Text
  fastPaths : Option (List (Nat × Nat)) := none
  fpMaster : Option Int := none
deriving DecidableEq

abbrev RFISLConf := Table RFISLConfEntry

namespace RFISLConf

/-- The lines that have the port at one end, and then those that have it at the other. -/
def getEntriesByPort (o : Order) (t : RFISLConf) (ct id port : Nat) : List (Row RFISLConfEntry) :=
  (t.find o fun c => c.ctId == ct && c.dpId == id && c.dpPort == port) ++
    t.find o fun c => c.remCt == ct && c.remId == id && c.remPort == port

def getEntriesByDpid (o : Order) (t : RFISLConf) (ct id : Nat) : List (Row RFISLConfEntry) :=
  (t.find o fun c => c.ctId == ct && c.dpId == id) ++ t.find o fun c => c.remCt == ct && c.remId == id

end RFISLConf

structure RFFPConfEntry where
  ctId : Nat
  dpId : Nat
  dpPort : Nat
  dp0Port : Nat
  fastPaths : List (Nat × Nat) := []
  fpMaster : Option Int := none
deriving DecidableEq

abbrev RFFPConf := Table RFFPConfEntry

namespace RFFPConf

def getEntriesAll (o : Order) (t : RFFPConf) : List (Row RFFPConfEntry) := t.find o fun _ => true

def getEntriesForDpid (o : Order) (t : RFFPConf) (ct dpId : Nat) : List (Row RFFPConfEntry) :=
  t.find o fun c => c.ctId == ct && c.dpId == dpId

def getEntriesForPort (o : Order) (t : RFFPConf) (ct dpId dpPort : Nat) : List (Row RFFPConfEntry) :=
  t.find o fun c => c.ctId == ct && c.dpId == dpId && c.dpPort == dpPort

end RFFPConf

end RouteFlow
