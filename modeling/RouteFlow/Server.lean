import RouteFlow.Translator

/-!
# RFServer

The message handlers of `rfserver.py`. A handler returns the state it leaves behind and whether it
raised: Python does not undo what a handler did before an exception.
-/

namespace RouteFlow

open Store

/-- The tables, the translators and the queues of RFServer. What it has sent and nobody has received
yet is here too, one channel for each client and one for RFProxy. -/
structure Server where
  rftable : RFTable
  isltable : RFISLTable
  routeModTranslator : Nat → Option Translator
  ackQ : List (Nat × PortConfig)
  dpQ : List (Nat × RouteMod)
  toClient : Nat → List PortConfig
  toProxy : List (Nat × ProxyMsg)

abbrev Outcome := Server × Except PyErr Unit

namespace Server

def init : Server where
  rftable := memoryTable RFEntry
  isltable := memoryTable RFISLEntry
  routeModTranslator := fun _ => none
  ackQ := []
  dpQ := []
  toClient := fun _ => []
  toProxy := []

def setRf (s : Server) (id : Option Nat) (e : RFEntry) : Server :=
  { s with rftable := setEntry s.rftable id e }

def setIsl (s : Server) (id : Option Nat) (e : RFISLEntry) : Server :=
  { s with isltable := setEntry s.isltable id e }

def sendClient (s : Server) (vmId : Nat) (msg : PortConfig) : Server :=
  { s with toClient := Function.update s.toClient vmId (s.toClient vmId ++ [msg]) }

def sendProxy (s : Server) (ctId : Nat) (msg : ProxyMsg) : Server :=
  { s with toProxy := s.toProxy ++ [(ctId, msg)] }

/-! ## Queues -/

/-- One round of the thread that empties `dp_q`. -/
def dpWorker (s : Server) : Server :=
  match s.dpQ with
  | [] => s
  | (ctId, rm) :: rest => { s with dpQ := rest }.sendProxy ctId (.routeMod rm)

/-- `RFServer.send_routemod_acks`: all acks at once. -/
def sendRoutemodAcks (s : Server) : Server :=
  { s.ackQ.foldl (fun s (vmId, ack) => s.sendClient vmId ack) s with ackQ := [] }

def queueRoutemodAck (s : Server) (vmId vmPort : Nat) : Server :=
  { s with ackQ := s.ackQ ++ [(vmId, ⟨vmId, vmPort, .routemodAck⟩)] }

/-- `RFServer.send_route_mod`: the RouteMod is queued with its controller. -/
def sendRouteMod (s : Server) (ctId : Nat) (rm : RouteMod) : Server :=
  { s with dpQ := s.dpQ ++ [(ctId, rm.addOption (.ctId ctId))] }

def sendRouteMods (s : Server) (ctId : Nat) (rms : List RouteMod) : Server :=
  rms.foldl (fun s rm => s.sendRouteMod ctId rm) s

/-! ## register_vm_port -/

variable (cfg : Config) (o : Order)

def registerIdleVm (s : Server) (vmId vmPort : Nat) (ethAddr : Mac) : Server :=
  s.setRf none { vmId := some vmId, vmPort := some vmPort, ethAddr := some ethAddr }

def registerVmPort (s : Server) (vmId vmPort : Nat) (ethAddr : Mac) : Outcome :=
  match RFConfig.getConfigForVmPort o cfg.config vmId vmPort with
  | none => (s.registerIdleVm vmId vmPort ethAddr, .ok ())
  | some c =>
    match RFTable.getEntryByDpPort o s.rftable (some c.val.ctId) (some c.val.dpId) (some c.val.dpPort) with
    | none => (s.registerIdleVm vmId vmPort ethAddr, .ok ())
    | some entry =>
      if entry.val.getStatus = .rfentryIdleDpPort then
        match entry.val.associate vmId vmPort none (some ethAddr) with
        | .ok e => (s.setRf (some entry.id) e, .ok ())
        | .error err => (s, .error err)
      else (s, .ok ())

/-! ## register_route_mod -/

/-- The flows for the ISL neighbours, with the translators as they are afterwards. -/
def islRouteMods (rftable : RFTable) (rm : RouteMod) :
    List RFISLEntry → (Nat → Option Translator) → (Nat → Option Translator) × Except PyErr (List RouteMod)
  | [], trs => (trs, .ok [])
  | r :: rest, trs =>
    if r.getStatus = .rfislActive then
      match r.dpId with
      | none => (trs, .error .typeError)
      | some dpId =>
        match trs dpId with
        | none => (trs, .error .keyError)
        | some remote =>
          let (remote, res) := remote.handleIslRouteMod o rftable r rm
          let trs := Function.update trs dpId (some remote)
          match res with
          | .error e => (trs, .error e)
          | .ok rms =>
            let (trs, more) := islRouteMods rftable rm rest trs
            (trs, more.map fun more => rms ++ more)
    else islRouteMods rftable rm rest trs

/-- The RouteMods that one RouteMod of a client turns into. -/
def translate (s : Server) (entry : RFEntry) (tr : Translator) (rm : RouteMod) :
    (Nat → Option Translator) × Except PyErr (List RouteMod) :=
  match rm.mod with
  | .controller => (s.routeModTranslator, tr.handleControllerRouteMod cfg o rm)
  | .add | .delete =>
    match tr.handleRouteMod o s.rftable s.isltable entry rm with
    | .error e => (s.routeModTranslator, .error e)
    | .ok (rm, rms) =>
      let remotes := (RFISLTable.getRemoteEntries o s.isltable entry.ctId entry.dpId).map fun r => r.val
      let (trs, more) := islRouteMods o s.rftable rm remotes s.routeModTranslator
      (trs, more.map fun more => rms ++ more)
  | _ => (s.routeModTranslator, .ok [])

def registerRouteMod (s : Server) (rm : RouteMod) : Outcome :=
  match RFTable.getEntryByVmPort o s.rftable rm.id rm.vmPort with
  | none => (s, .error .attributeError)
  | some row =>
    let entry := row.val
    match entry.dpId with
    | none => (s, .error .keyError)
    | some dpId =>
      match s.routeModTranslator dpId with
      | none => (s, .error .keyError)
      | some tr =>
        if entry.getStatus = .rfentryIdleVmPort then (s, .ok ())
        else
          let (trs, res) := translate cfg o s entry tr (rm.setId dpId)
          let s := { s with routeModTranslator := trs }
          match res with
          | .error e => (s, .error e)
          | .ok rms =>
            match entry.ctId with
            -- `Option.CT_ID(None)` fails at the first RouteMod.
            | none =>
              if rms = [] then (s.queueRoutemodAck rm.id rm.vmPort, .ok ()) else (s, .error .typeError)
            | some ctId => ((s.sendRouteMods ctId rms).queueRoutemodAck rm.id rm.vmPort, .ok ())

/-! ## register_dp_port -/

/-- The translator that `config_dp` makes for a datapath. -/
def newTranslator (ctId dpId : Nat) : Translator where
  kind := if dpId ∈ cfg.multitabledps then .noviFlow
    else if dpId ∈ cfg.satellitedps then .satellite else .default
  dpId := dpId
  ctId := ctId

/-- Returns whether the registration stops here. -/
def configDp (s : Server) (ctId dpId : Nat) : Server × Except PyErr Bool :=
  if isRfvs dpId then (s, .ok true)
  else if RFTable.isDpRegistered o s.rftable ctId dpId ||
    RFISLTable.isDpRegistered o s.isltable ctId dpId then
    match s.routeModTranslator dpId with
    | some _ => (s, .ok false)
    | none =>
      let tr := newTranslator cfg ctId dpId
      let s := { s with routeModTranslator := Function.update s.routeModTranslator dpId (some tr) }
      match tr.configureDatapath cfg o with
      | .error e => (s, .error e)
      | .ok rms => (s.sendRouteMods ctId rms, .ok false)
  else (s, .ok false)

/-- The other end of the line in which (`ctId`, `dpId`) has one. -/
structure IslEnds where
  remCt : Nat
  remId : Nat
  remPort : Nat
  remEthAddr : Text
  ethAddr : Text

/-- Which end of the line the datapath is, and which is the other. -/
def islEnds (conf : RFISLConfEntry) (ctId dpId : Nat) : IslEnds :=
  if conf.remId ≠ dpId ∨ conf.remCt ≠ ctId then
    ⟨conf.remCt, conf.remId, conf.remPort, conf.remEthAddr, conf.ethAddr⟩
  else ⟨conf.ctId, conf.dpId, conf.dpPort, conf.ethAddr, conf.remEthAddr⟩

/-- One round of the loop of `_register_islconf`. -/
def registerIslLine (ctId dpId dpPort : Nat) (s : Server) (conf : RFISLConfEntry) : Server :=
  let ends := islEnds conf ctId dpId
  match RFISLTable.getEntryByAddr o s.isltable ends.remCt ends.remId ends.remPort ends.remEthAddr with
  | none =>
    s.setIsl none { vmId := some conf.vmId, ctId := some ctId, dpId := some dpId, dpPort := some dpPort,
                    ethAddr := some ends.ethAddr }
  | some entry =>
    if entry.val.getStatus = .rfislIdleDpPort then
      let e := entry.val.associate ctId dpId dpPort ends.ethAddr
      let s := s.setIsl (some entry.id) e
      match RFISLTable.getEntryByRemote o s.isltable e.ctId e.dpId e.dpPort e.ethAddr with
      | none =>
        s.setIsl none { vmId := e.vmId, ctId := some ctId, dpId := some dpId, dpPort := some dpPort,
                        ethAddr := e.remEthAddr, remCt := e.ctId, remId := e.dpId, remPort := e.dpPort,
                        remEthAddr := e.ethAddr }
      | some mirror => s.setIsl (some mirror.id) (mirror.val.associate ctId dpId dpPort ends.ethAddr)
    else s

def registerIslconf (s : Server) (confs : List RFISLConfEntry) (ctId dpId dpPort : Nat) : Server :=
  confs.foldl (registerIslLine o ctId dpId dpPort) s

def registerIdleDp (s : Server) (ctId dpId dpPort : Nat) : Server :=
  s.setRf none { ctId := some ctId, dpId := some dpId, dpPort := some dpPort }

/-- What `register_dp_port` does after `config_dp`. -/
def enterDpPort (s : Server) (ctId dpId dpPort : Nat) : Outcome :=
  match RFConfig.getConfigForDpPort o cfg.config ctId dpId dpPort with
  | none =>
    match RFISLConf.getEntriesByPort o cfg.islconf ctId dpId dpPort with
    | [] => (s.registerIdleDp ctId dpId dpPort, .ok ())
    | confs => (s.registerIslconf o (confs.map fun r => r.val) ctId dpId dpPort, .ok ())
  | some c =>
    match RFTable.getEntryByVmPort o s.rftable c.val.vmId c.val.vmPort with
    | none => (s.registerIdleDp ctId dpId dpPort, .ok ())
    | some entry =>
      if entry.val.getStatus = .rfentryIdleVmPort then
        match entry.val.associate dpId dpPort (some ctId) none with
        | .ok e => (s.setRf (some entry.id) e, .ok ())
        | .error err => (s, .error err)
      else (s, .ok ())

def registerDpPort (s : Server) (ctId dpId dpPort : Nat) : Outcome :=
  match configDp cfg o s ctId dpId with
  | (s, .error e) => (s, .error e)
  | (s, .ok true) => (s, .ok ())
  | (s, .ok false) => enterDpPort cfg o s ctId dpId dpPort

/-! ## set_dp_down -/

/-- `RFServer.reset_vm_port`. Without a VM port nobody is told. -/
def resetVmPort (s : Server) (vmId vmPort : Option Nat) : Server :=
  match vmId with
  | none => s
  -- A row with a `vm_id` has a `vm_port`.
  | some vmId => s.sendClient vmId ⟨vmId, vmPort.getD 0, .reset⟩

def setDpPortDown (s : Server) (ctId dpId dpPort : Option Nat) : Server :=
  match RFTable.getEntryByDpPort o s.rftable ctId dpId dpPort with
  | none => s
  | some entry =>
    (s.setRf (some entry.id) (entry.val.makeIdle .rfentryIdleVmPort)).resetVmPort entry.val.vmId
      entry.val.vmPort

/-- `RFServer.set_dp_down`: the rows of both tables, one query result after the other. -/
def setDpDown (s : Server) (ctId dpId : Nat) : Server :=
  let s := (RFTable.getDpEntries o s.rftable ctId dpId).foldl
    (fun s r => s.setDpPortDown o r.val.ctId r.val.dpId r.val.dpPort) s
  let isl := Table.putAll (fun e => e.makeIdle .rfislIdleRemote)
    (RFISLTable.getDpEntries o s.isltable ctId dpId) s.isltable
  let isl := Table.putAll (fun e => e.makeIdle .rfislIdleDpPort)
    (RFISLTable.getRemoteEntries o isl (some ctId) (some dpId)) isl
  { s with isltable := isl }

/-! ## map_port -/

def mapPort (s : Server) (vmId vmPort vsId vsPort : Nat) : Server :=
  match RFTable.getEntryByVmPort o s.rftable vmId vmPort with
  | none => s
  | some entry =>
    if entry.val.getStatus = .rfentryAssociated then
      let e := entry.val.activate vsId vsPort
      let s := s.setRf (some entry.id) e
      let s := s.sendProxy (e.ctId.getD 0) (.dataPlaneMap ⟨e.ctId, e.dpId, e.dpPort, vsId, vsPort⟩)
      s.sendClient vmId ⟨vmId, vmPort, .mapSuccess⟩
    else s

/-! ## process -/

/-- `RFServer.process`, for each type of message. -/
def process (s : Server) : Msg → Outcome
  | .portRegister vmId vmPort hwaddress => registerVmPort cfg o s vmId vmPort hwaddress
  | .routeMod rm => registerRouteMod cfg o s rm
  | .datapathPortRegister ctId dpId dpPort => registerDpPort cfg o s ctId dpId dpPort
  | .datapathDown ctId dpId => (setDpDown o s ctId dpId, .ok ())
  | .virtualPlaneMap vmId vmPort vsId vsPort => (mapPort o s vmId vmPort vsId vsPort, .ok ())
  | .routeModReply => (s.sendRoutemodAcks, .ok ())

/-- One message, read with some row order. A later message finds what an exception left behind. -/
def step (s : Server) (m : Order × Msg) : Server := (process cfg m.1 s m.2).1

end Server

end RouteFlow
