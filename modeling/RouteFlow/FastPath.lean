import RouteFlow.Tables

/-!
# Fast paths

`rffastpath.py`: labels for the configured ports, and the links that carry them to dp0.
-/

namespace RouteFlow

open Store

/-! ## MetaVLAN -/

/-- A label is a VLAN tag. -/
def rfactionPushMeta (label : Nat) (rm : RouteMod) : RouteMod := rm.addAction (.setVlanId label)
def rfactionPopMeta (rm : RouteMod) : RouteMod := rm.addAction .stripVlan
def rfmatchMeta (label : Nat) (rm : RouteMod) : RouteMod := rm.addMatch (.vlanId label)

/-- A match of the rules for labels. -/
def Match.ofFastPath : Match → Bool
  | .inPort _ | .vlanId _ => true
  | _ => false

/-- `allocate_label`. The label has eleven bits. -/
def allocateLabel (label : Nat) : Except PyErr (Nat × Nat) :=
  if 1 <<< 11 ≤ label then .error .overflowError else .ok (label, label + 1)

/-- `MetaVLAN.label` before the first allocation. -/
def firstLabel : Nat := 2

/-! ## Links

An entry of `check_set` is an object in Python, so it keeps its own fields next to the row it came
from. `set_entry` writes them back.
-/

inductive Link where
  | fp (row : Row RFFPConfEntry)
  | isl (row : Row RFISLConfEntry)
deriving DecidableEq

namespace Link

def dpId : Link → Nat
  | fp r => r.val.dpId
  | isl r => r.val.dpId

/-- The other end of an ISL. A fast path link ends at dp0. -/
def remId : Link → Option Nat
  | fp _ => none
  | isl r => some r.val.remId

def fastPaths : Link → List (Nat × Nat)
  | fp r => r.val.fastPaths
  | isl r => r.val.fastPaths.getD []

def fpMaster : Link → Option Int
  | fp r => r.val.fpMaster
  | isl r => r.val.fpMaster

def setMaster (m : Option Int) : Link → Link
  | fp r => fp { r with val := { r.val with fpMaster := m } }
  | isl r => isl { r with val := { r.val with fpMaster := m } }

def addPaths (paths : List (Nat × Nat)) : Link → Link
  | fp r => fp { r with val := { r.val with fastPaths := r.val.fastPaths ++ paths } }
  | isl r => isl { r with val := { r.val with fastPaths := some (r.val.fastPaths.getD [] ++ paths) } }

/-- One of the two ends is `dpid`. A fast path link has no `rem_id` and uses -1. -/
def touches (l : Link) (dpid : Int) : Bool :=
  (l.dpId : Int) == dpid || (match l.remId with | some r => (r : Int) | none => -1) == dpid

end Link

/-- An element of `check_set`. -/
structure CheckItem where
  ctId : Nat
  parentDpid : Int
  link : Link
deriving DecidableEq

/-- The tables that the label allocation changes, and the label counter. -/
structure FpState where
  conf : RFConfig
  fpconf : RFFPConf
  islconf : RFISLConf
  label : Nat

def FpState.setLink (st : FpState) : Link → FpState
  | .fp r => { st with fpconf := st.fpconf.put r.id r.val }
  | .isl r => { st with islconf := st.islconf.put r.id r.val }

/-! ## shortest_recursive -/

/-- The end of the link that is not the parent. -/
def CheckItem.myDpid (item : CheckItem) : Except PyErr Nat :=
  if item.parentDpid = (item.link.dpId : Int) then
    match item.link.remId with
    | some r => .ok r
    | none => .error .attributeError
  else .ok item.link.dpId

/-- The loop over the ports of a switch. The flag is false after a `break`. -/
def labelPorts (st : FpState) (link : Link) :
    List (Row RFConfigEntry) → Except PyErr (FpState × Link × Bool)
  | [] => .ok (st, link, true)
  | port :: rest =>
    match port.val.fpLabel with
    | some _ => .ok (st, link, false)
    | none => do
      let (l, next) ← allocateLabel st.label
      let conf := st.conf.put port.id { port.val with fpLabel := some l }
      labelPorts { st with conf := conf, label := next } (link.addPaths [(l, port.val.vmPort)]) rest

/-- The loop that collects the links to check next. It looks at the objects of one query, so a link
that joins a switch to itself comes up twice. -/
def nextIsls (st : FpState) (ct my : Nat) : List (Row RFISLConfEntry) → FpState × List CheckItem
  | [] => (st, [])
  | r :: rest =>
    match r.val.fastPaths with
    | some _ => nextIsls st ct my rest
    | none =>
      let r' : Row RFISLConfEntry := { r with val := { r.val with fastPaths := some [] } }
      let (st', items) := nextIsls { st with islconf := st.islconf.put r.id r'.val } ct my rest
      (st', ⟨ct, my, .isl r'⟩ :: items)

/-- One round of the loop over `check_set`. -/
def visit (o : Order) (st : FpState) (item : CheckItem) :
    Except PyErr (FpState × CheckItem × List CheckItem) := do
  let my ← item.myDpid
  let (st, link, nobreak) ← labelPorts st item.link (RFConfig.getConfigForDp o st.conf item.ctId my)
  if nobreak then
    let link := link.setMaster (some item.parentDpid)
    let st := st.setLink link
    let (st, next) := nextIsls st item.ctId my (RFISLConf.getEntriesByDpid o st.islconf item.ctId my)
    return (st, { item with link := link }, next)
  else
    -- Someone has already tagged this switch.
    let link := link.setMaster none
    return (st.setLink link, { item with link := link }, [])

/-- The loop over `check_set`, with what it finds for the next level. -/
def visitAll (o : Order) (st : FpState) :
    List CheckItem → Except PyErr (FpState × List CheckItem × List CheckItem)
  | [] => .ok (st, [], [])
  | item :: rest => do
    let (st, item, next) ← visit o st item
    let (st, rest, more) ← visitAll o st rest
    return (st, item :: rest, next ++ more)

/-- `while ...: x = it.next()[2]` with the items before and after `x`. -/
def seek (dpid : Int) (done : List CheckItem) (x : CheckItem) :
    List CheckItem → Except PyErr (List CheckItem × CheckItem × List CheckItem)
  | [] => if x.link.touches dpid then .ok (done, x, []) else .error .stopIteration
  | y :: rest =>
    if x.link.touches dpid then .ok (done, x, y :: rest) else seek dpid (done ++ [x]) y rest

/-- Pulls the labels of `next_set` up to the links of `check_set`. -/
def pullUp (st : FpState) (done : List CheckItem) (x : CheckItem) (rest : List CheckItem) :
    List CheckItem → Except PyErr (FpState × List CheckItem)
  | [] => .ok (st, done ++ x :: rest)
  | n :: ns => do
    let (done, x, rest) ← seek n.parentDpid done x rest
    let link := x.link.addPaths n.link.fastPaths
    pullUp (st.setLink link) done { x with link := link } rest ns

/-- The report at the end formats `fp_master` of each link that carries labels. -/
def reportLinks : List CheckItem → Except PyErr Unit
  | [] => .ok ()
  | item :: rest =>
    if item.link.fastPaths = [] then reportLinks rest
    else
      match item.link.fpMaster with
      | none => .error .typeError
      | some m =>
        if (item.link.dpId : Int) = m ∧ item.link.remId = none then .error .attributeError
        else reportLinks rest

/-- `shortest_recursive`, with a bound on the depth of the recursion. Returns the links of
`check_set` as they are afterwards. -/
def shortestRecursive (o : Order) : Nat → FpState → List CheckItem → Except PyErr (FpState × List CheckItem)
  | 0, _, _ => .error .runtimeError
  | depth + 1, st, checkSet => do
    let (st, checked, nextSet) ← visitAll o st checkSet
    let (st, nextSet) ← if nextSet = [] then .ok (st, []) else shortestRecursive o depth st nextSet
    match checked with
    | [] => .error .stopIteration
    | x :: rest =>
      let (st, checked) ← pullUp st [] x rest nextSet
      reportLinks checked
      return (st, checked)

/-- `fp_allocate_labels`. One level per link is enough. -/
def fpAllocateLabels (o : Order) (st : FpState) : Except PyErr FpState :=
  match RFFPConf.getEntriesAll o st.fpconf with
  | [] => .ok st
  | fplinks => do
    let checkSet := fplinks.map fun r => ⟨r.val.ctId, -1, .fp r⟩
    let (st, _) ← shortestRecursive o (st.islconf.rows.length + 1) st checkSet
    return st

/-! ## The rules of dp0 -/

inductive OvsAction where
  | pushVlan
  | modVlanVid (tag : Nat)
  | stripVlan
  | output (port : Nat)
  | controller
deriving DecidableEq

structure OvsFlow where
  inPort : Option Nat := none
  dlVlan : Option Nat := none
  dlDst : Option Mac := none
  priority : Nat
  actions : List OvsAction
deriving DecidableEq

/-- What comes from the client's port gets the label and goes down the link. -/
def dp0Down (dp0Port label vmPort : Nat) : OvsFlow where
  inPort := some vmPort
  priority := 32800
  actions := [.pushVlan, .modVlanVid label, .output dp0Port]

/-- What comes up the link with the label goes to the client's port. -/
def dp0Up (dp0Port label vmPort : Nat) : OvsFlow where
  dlVlan := some label
  inPort := some dp0Port
  priority := 32800
  actions := [.stripVlan, .output vmPort]

/-- Packets that map ports go to the controller. -/
def dp0Mapping : OvsFlow where
  dlDst := some 0
  priority := 32801
  actions := [.controller]

/-- The main program of `rffastpath.py`. -/
def dp0Flows (o : Order) (fpconf : RFFPConf) : List OvsFlow :=
  let paths := (RFFPConf.getEntriesAll o fpconf).flatMap fun r =>
    r.val.fastPaths.flatMap fun (label, vmPort) =>
      [dp0Down r.val.dp0Port label vmPort, dp0Up r.val.dp0Port label vmPort]
  if paths = [] then [] else paths ++ [dp0Mapping]

end RouteFlow
