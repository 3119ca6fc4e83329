import RouteFlow.FastPath

/-!
# The RouteMod translators

The classes of `rfserver.py` that `config_dp` makes. A method that changes the RouteMod it is given
returns the changed one, since `register_route_mod` reads it afterwards.
-/

namespace RouteFlow

open Store

/-! ## Priorities -/

def DROP_PRIORITY : RFOption := .priority (PRIORITY_LOWEST + PRIORITY_BAND)
def ESTABLISH_PRIORITY : RFOption := .priority (PRIORITY_LOWEST + PRIORITY_BAND + 1)
def CONTROLLER_PRIORITY : RFOption := .priority PRIORITY_HIGH
def FASTPATH_PRIORITY : RFOption := .priority (PRIORITY_HIGH + 1)
def DEFAULT_PRIORITY : RFOption := .priority (PRIORITY_LOWEST + PRIORITY_BAND + 1000)

/-! ## The parts of RFServer that a translator holds -/

/-- What RFServer reads from its files. `fp_allocate_labels` has run. -/
structure Config where
  config : RFConfig
  islconf : RFISLConf
  fpconf : RFFPConf
  multitabledps : List Nat
  satellitedps : List Nat

/-- `fpconf.enabled`: there is at least one fast path link. -/
def Config.fpEnabled (cfg : Config) : Bool := !cfg.fpconf.rows.isEmpty

inductive TranslatorKind where
  | default | satellite | noviFlow
deriving DecidableEq, Repr

/-- A `RouteModTranslator`, with what it remembers of its links. -/
structure Translator where
  kind : TranslatorKind
  dpId : Nat
  ctId : Nat
  /-- `sent_isl_dl` of the Satellite translator. -/
  sentIslDl : List (Option Text) := []
deriving DecidableEq

/-- What `_send_rm_with_matches` reads of an entry of either table. -/
structure PortEntry where
  dpPort : Option Nat
  ethAddr : Option Text
  status : Status
deriving DecidableEq

def RFEntry.toPort (e : RFEntry) : PortEntry := ⟨e.dpPort, e.ethAddr.map Mac.text, e.getStatus⟩
def RFISLEntry.toPort (e : RFISLEntry) : PortEntry := ⟨e.dpPort, e.ethAddr, e.getStatus⟩

/-- A route gets a flow for the port: it is active, and not the one that the route leaves by. -/
def PortEntry.eligible (outPort : Option Nat) (e : PortEntry) : Bool :=
  decide (outPort ≠ e.dpPort) && (e.status == .rfentryActive || e.status == .rfislActive)

/-- The ports of the datapath in `RFTable`. -/
def rfPorts (o : Order) (t : RFTable) (ctId dpId : Option Nat) : List PortEntry :=
  (t.find o fun e => e.dpId == dpId && e.ctId == ctId).map fun r => r.val.toPort

/-- The ports of the datapath in `RFISLTable`. -/
def islPorts (o : Order) (t : RFISLTable) (ctId dpId : Option Nat) : List PortEntry :=
  (t.find o fun e => e.dpId == dpId && e.ctId == ctId).map fun r => r.val.toPort

/-! ## Fast path rules -/

/-- The fields that fast path links and ISLs share, as seen by their readers. -/
structure FpEntry where
  ctId : Nat
  dpId : Nat
  dpPort : Nat
  remPort : Option Nat
  fastPaths : Option (List (Nat × Nat))
  fpMaster : Option Int
deriving DecidableEq

def RFFPConfEntry.toFp (e : RFFPConfEntry) : FpEntry :=
  ⟨e.ctId, e.dpId, e.dpPort, none, some e.fastPaths, e.fpMaster⟩

def RFISLConfEntry.toFp (e : RFISLConfEntry) : FpEntry :=
  ⟨e.ctId, e.dpId, e.dpPort, some e.remPort, e.fastPaths, e.fpMaster⟩

namespace Translator

variable (cfg : Config) (o : Order) (tr : Translator)

/-- The links of the datapath: its fast path links, and then its ISLs. -/
def fpEntries : List FpEntry :=
  (RFFPConf.getEntriesForDpid o cfg.fpconf tr.ctId tr.dpId).map (fun r => r.val.toFp) ++
    (RFISLConf.getEntriesByDpid o cfg.islconf tr.ctId tr.dpId).map fun r => r.val.toFp

/-- The port of this datapath on a link. Only ISLs have a `rem_port`. -/
def portOn (fp : FpEntry) : Except PyErr Nat :=
  if fp.dpId = tr.dpId ∧ fp.ctId = tr.ctId then .ok fp.dpPort
  else
    match fp.remPort with
    | some p => .ok p
    | none => .error .attributeError

/-- `fp_master` is set, not zero, and not this datapath. -/
def isUp (fp : FpEntry) : Bool :=
  match fp.fpMaster with
  | some m => m != 0 && m != (tr.dpId : Int)
  | none => false

/-- `None` when no link leads up. With several, the first one counts. -/
def getFastpathPort : Except PyErr (Option Nat) :=
  match (tr.fpEntries cfg o).filter tr.isUp with
  | [] => .ok none
  | master :: _ => (tr.portOn master).map some

/-- `_register_fpports`: each labelled port tags what comes in and gets what has its label. -/
def registerFpports (fpPort : Option Nat) (usetables : Bool) (fpTable : Nat) :
    List RFConfigEntry → Except PyErr (List RouteMod)
  | [] => .ok []
  | port :: rest =>
    match port.fpLabel with
    | none => registerFpports fpPort usetables fpTable rest
    | some label => do
      let tagging ←
        if usetables then do
          let rm := ({ mod := .add, id := tr.dpId } : RouteMod).addMatch (.inPort port.dpPort)
          let rm := (rfactionPushMeta label rm).addAction (← Action.OUTPUT fpPort)
          pure [(rm.addOption CONTROLLER_PRIORITY).setTable fpTable]
        else pure []
      let rm := ({ mod := .add, id := tr.dpId } : RouteMod).addMatch (← Match.IN_PORT fpPort)
      let rm := (rfactionPopMeta (rfmatchMeta label rm)).addAction (.output port.dpPort)
      let more ← registerFpports fpPort usetables fpTable rest
      return tagging ++ rm.addOption FASTPATH_PRIORITY :: more

/-- Both directions of one label over one ISL. -/
def fpislRules (outPort dpPort label : Nat) : List RouteMod :=
  [((rfmatchMeta label (({ mod := .add, id := tr.dpId } : RouteMod).addMatch (.inPort dpPort))).addAction
      (.output outPort)).addOption FASTPATH_PRIORITY,
   ((rfmatchMeta label (({ mod := .add, id := tr.dpId } : RouteMod).addMatch (.inPort outPort))).addAction
      (.output dpPort)).addOption FASTPATH_PRIORITY]

/-- `_register_fpisl`: the labels of the link go up and down. -/
def registerFpisl (outPort : Option Nat) (fp : FpEntry) (dpPort : Nat) : Except PyErr (List RouteMod) :=
  match fp.fastPaths, outPort with
  | none, _ => .error .attributeError
  | some [], _ => .ok []
  | some (_ :: _), none => .error .typeError
  | some paths, some out => .ok (paths.flatMap fun (label, _) => tr.fpislRules out dpPort label)

/-- The rules for the links that this datapath is the master of. -/
def registerFpisls (masterPort : Option Nat) : List FpEntry → Except PyErr (List RouteMod)
  | [] => .ok []
  | fp :: rest =>
    if fp.fpMaster = some (tr.dpId : Int) then do
      let rms ← tr.registerFpisl masterPort fp (← tr.portOn fp)
      return rms ++ (← registerFpisls masterPort rest)
    else registerFpisls masterPort rest

def registerFastpaths (usetables : Bool) (fpTable : Nat) : Except PyErr (List RouteMod) := do
  let masterPort ← tr.getFastpathPort cfg o
  let ports := (RFConfig.getConfigForDp o cfg.config tr.ctId tr.dpId).map fun r => r.val
  let rms ← tr.registerFpports masterPort usetables fpTable ports
  return rms ++ (← tr.registerFpisls masterPort (tr.fpEntries cfg o))

/-! ## DefaultRouteModTranslator -/

/-- One copy of the RouteMod for each active port but the output port. -/
def sendRmWithMatches (rm : RouteMod) (outPort : Option Nat) (entries : List PortEntry) :
    Except PyErr (List RouteMod) :=
  (entries.filter fun e => e.eligible outPort).mapM fun e => do
    return (rm.addMatch (← Match.ETHERNET e.ethAddr)).addMatch (← Match.IN_PORT e.dpPort)

/-- The rules for all ports of this datapath, with the label of each. -/
def tagRules (masterPort : Option Nat) (rm : RouteMod) : List RFConfigEntry → Except PyErr (List RouteMod)
  | [] => .ok []
  | port :: rest =>
    match port.fpLabel with
    | none => .error .attributeError
    | some label => do
      let newRm := rfactionPushMeta label (rm.addMatch (.inPort port.dpPort))
      let newRm := newRm.addAction (← Action.OUTPUT masterPort)
      return newRm :: (← tagRules masterPort rm rest)

def defaultHandleControllerRouteMod (rm : RouteMod) : Except PyErr (List RouteMod) :=
  if cfg.fpEnabled then do
    let masterPort ← tr.getFastpathPort cfg o
    -- A match is a dict there, so `match.value` fails.
    if rm.matchList.any Match.isInPort then .error .attributeError
    else tagRules masterPort rm ((RFConfig.getConfigForDp o cfg.config tr.ctId tr.dpId).map fun r => r.val)
  else .ok [rm.addAction Action.CONTROLLER]

def defaultConfigureDatapath : Except PyErr (List RouteMod) := do
  let new : RouteMod := { mod := .add, id := tr.dpId }
  let ip ← tr.defaultHandleControllerRouteMod cfg o
    ((new.addOption ESTABLISH_PRIORITY).addMatch (.ethertype ETHERTYPE_IP))
  let ipv6 ← tr.defaultHandleControllerRouteMod cfg o
    ((new.addOption ESTABLISH_PRIORITY).addMatch (.ethertype ETHERTYPE_IPV6))
  let arp ← tr.defaultHandleControllerRouteMod cfg o
    ((new.addMatch (.ethertype ETHERTYPE_ARP)).addOption CONTROLLER_PRIORITY)
  let fast ← if cfg.fpEnabled then tr.registerFastpaths cfg o false 1 else .ok []
  return { mod := .deleteGroup, id := tr.dpId } :: { mod := .delete, id := tr.dpId } ::
    (ip ++ ipv6 ++ [new.addOption DROP_PRIORITY] ++ arp ++ fast)

/-- Also returns the RouteMod with the output action. -/
def defaultHandleRouteMod (rftable : RFTable) (isltable : RFISLTable) (entry : RFEntry) (rm : RouteMod) :
    Except PyErr (RouteMod × List RouteMod) := do
  let entries := rfPorts o rftable entry.ctId entry.dpId ++ islPorts o isltable entry.ctId entry.dpId
  let rm := rm.addAction (← Action.OUTPUT entry.dpPort)
  return (rm, ← sendRmWithMatches rm entry.dpPort entries)

/-- The actions that carry a packet over the ISL `r`. -/
def islActions (r : RFISLEntry) : Except PyErr (List Action) := do
  return [← Action.SET_ETH_SRC r.ethAddr, ← Action.SET_ETH_DST r.remEthAddr, ← Action.OUTPUT r.dpPort]

def defaultHandleIslRouteMod (rftable : RFTable) (r : RFISLEntry) (rm : RouteMod) :
    Except PyErr (List RouteMod) := do
  let rm := ((rm.setId tr.dpId).setTable 0).setActions (← islActions r)
  sendRmWithMatches rm r.dpPort (rfPorts o rftable r.ctId r.dpId)

/-! ## SatelliteRouteModTranslator -/

/-- The loop over the two Ethernet types. The second round finds the address already noted. -/
def satelliteLoop (rftable : RFTable) (r : RFISLEntry) (rm : RouteMod) :
    List Nat → List (Option Text) → List (Option Text) × Except PyErr (List RouteMod)
  | [], sent => (sent, .ok [])
  | ethertype :: rest, sent =>
    let rm := (rm.setMatches [.ethertype ethertype]).setOptions [DEFAULT_PRIORITY]
    if r.remEthAddr ∈ sent then satelliteLoop rftable r rm rest sent
    else
      match tr.defaultHandleIslRouteMod o rftable r rm with
      | .error e => (r.remEthAddr :: sent, .error e)
      | .ok rms =>
        let (sent, more) := satelliteLoop rftable r rm rest (r.remEthAddr :: sent)
        (sent, more.map fun more => rms ++ more)

/-! ## NoviFlowMultitableRouteModTranslator -/

def NOVIFLOW_FP_TABLE : Nat := 3
def NOVIFLOW_FIB_TABLE : Nat := 2
def NOVIFLOW_ETHER_TABLE : Nat := 1

/-- One RouteMod if any port but the output port is active. -/
def noviFlowSendRmWithMatches (rm : RouteMod) (outPort : Option Nat) (entries : List PortEntry) :
    List RouteMod :=
  if entries.any fun e => e.eligible outPort then [rm] else []

def noviFlowHandleControllerRouteMod (rm : RouteMod) : List RouteMod :=
  let rm := rm.addAction (if cfg.fpEnabled then .goto NOVIFLOW_FP_TABLE else .group CONTROLLER_GROUP)
  let dlDst := (rm.matchList.filterMap fun | .ethernet m => some m | _ => none).getLast?
  let others := rm.matchList.filter fun | .ethernet _ => false | _ => true
  let rm := (rm.setTable NOVIFLOW_ETHER_TABLE).setMatches others
  match dlDst with
  | none => [rm]
  | some m =>
    let hwRm : RouteMod := { mod := .controller, id := rm.id, vmPort := rm.vmPort }
    [rm, ((hwRm.addMatch (.ethernet m)).addAction (.goto NOVIFLOW_ETHER_TABLE)).addOption DEFAULT_PRIORITY]

def noviFlowConfigureDatapath : Except PyErr (List RouteMod) := do
  let new : RouteMod := { mod := .add, id := tr.dpId }
  let group := { (new.addAction Action.CONTROLLER) with mod := .addGroup, group := CONTROLLER_GROUP }
  let catchIp (type : Nat) : List RouteMod :=
    (noviFlowHandleControllerRouteMod cfg
      ((new.addOption ESTABLISH_PRIORITY).addMatch (.ethertype type))).map fun x =>
        x.setTable NOVIFLOW_FIB_TABLE
  let drops := [0, NOVIFLOW_ETHER_TABLE, NOVIFLOW_FIB_TABLE].map fun table =>
    (new.setTable table).addOption DROP_PRIORITY
  let broadcast := ((new.addMatch (.ethernet (BitVec.allOnes 48))).addAction
    (.goto NOVIFLOW_ETHER_TABLE)).addOption CONTROLLER_PRIORITY
  let arp := noviFlowHandleControllerRouteMod cfg
    (((new.setTable NOVIFLOW_ETHER_TABLE).addMatch (.ethertype ETHERTYPE_ARP)).addOption CONTROLLER_PRIORITY)
  let ipv4 := (((new.setTable NOVIFLOW_ETHER_TABLE).addMatch (.ethertype ETHERTYPE_IP)).addOption
    DEFAULT_PRIORITY).addAction (.goto NOVIFLOW_FIB_TABLE)
  let fast ← if cfg.fpEnabled then tr.registerFastpaths cfg o true NOVIFLOW_FP_TABLE else .ok []
  return { mod := .deleteGroup, id := tr.dpId } :: group :: { mod := .delete, id := tr.dpId } ::
    (catchIp ETHERTYPE_IP ++ catchIp ETHERTYPE_IPV6 ++ drops ++ [broadcast] ++ arp ++ [ipv4] ++ fast)

def noviFlowHandleRouteMod (rftable : RFTable) (isltable : RFISLTable) (entry : RFEntry) (rm : RouteMod) :
    Except PyErr (RouteMod × List RouteMod) := do
  let entries := rfPorts o rftable entry.ctId entry.dpId ++ islPorts o isltable entry.ctId entry.dpId
  let rm := rm.addAction (← Action.OUTPUT entry.dpPort)
  let rm := (rm.setTable NOVIFLOW_FIB_TABLE).setOptions [CONTROLLER_PRIORITY]
  return (rm, noviFlowSendRmWithMatches rm entry.dpPort entries)

def noviFlowHandleIslRouteMod (rftable : RFTable) (r : RFISLEntry) (rm : RouteMod) :
    Except PyErr (List RouteMod) := do
  let rm := ((rm.setId tr.dpId).setTable NOVIFLOW_FIB_TABLE).setOptions [CONTROLLER_PRIORITY]
  let rm := rm.setActions (← islActions r)
  let rms := noviFlowSendRmWithMatches rm r.dpPort (rfPorts o rftable r.ctId r.dpId)
  let mac ← Match.ETHERNET (if some tr.dpId = r.dpId then r.ethAddr else r.remEthAddr)
  return rms ++ [((rm.setTable 0).setActions [.goto NOVIFLOW_FIB_TABLE]).setMatches [mac]]

/-! ## Dispatch on the class -/

def configureDatapath : Except PyErr (List RouteMod) :=
  match tr.kind with
  | .default | .satellite => tr.defaultConfigureDatapath cfg o
  | .noviFlow => tr.noviFlowConfigureDatapath cfg o

def handleControllerRouteMod (rm : RouteMod) : Except PyErr (List RouteMod) :=
  match tr.kind with
  | .default | .satellite => tr.defaultHandleControllerRouteMod cfg o rm
  | .noviFlow => .ok (noviFlowHandleControllerRouteMod cfg rm)

/-- The RouteMod comes back as the handler leaves it. -/
def handleRouteMod (rftable : RFTable) (isltable : RFISLTable) (entry : RFEntry) (rm : RouteMod) :
    Except PyErr (RouteMod × List RouteMod) :=
  match tr.kind with
  | .default | .satellite => defaultHandleRouteMod o rftable isltable entry rm
  | .noviFlow => noviFlowHandleRouteMod o rftable isltable entry rm

/-- Also returns the translator, whose memory may have grown. -/
def handleIslRouteMod (rftable : RFTable) (r : RFISLEntry) (rm : RouteMod) :
    Translator × Except PyErr (List RouteMod) :=
  match tr.kind with
  | .default => (tr, tr.defaultHandleIslRouteMod o rftable r rm)
  | .noviFlow => (tr, tr.noviFlowHandleIslRouteMod o rftable r rm)
  | .satellite =>
    let (sent, rms) := tr.satelliteLoop o rftable r rm [ETHERTYPE_IP, ETHERTYPE_IPV6] tr.sentIslDl
    ({ tr with sentIslDl := sent }, rms)

end Translator

/-- A satellite translator notes the link. -/
def afterIsl (tr : Translator) (r : RFISLEntry) : Translator :=
  match tr.kind with
  | .satellite =>
    if r.remEthAddr ∈ tr.sentIslDl then tr else { tr with sentIslDl := r.remEthAddr :: tr.sentIslDl }
  | _ => tr

end RouteFlow
