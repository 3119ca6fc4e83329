import RouteFlow.Client
import RouteFlow.Server

/-!
# Server, clients and proxy

The parties and what is in flight between them. The channels of a client are queues. A listener of
RFServer is a thread that ends with the first exception.
-/

namespace RouteFlow

open Store

/-- RFServer, the clients, and the messages between them and RFProxy. -/
structure System where
  server : Server
  clients : Nat → RFClient
  toServer : Nat → List Msg
  -- The interfaces that a mapping packet left on, as (VM, port).
  mapPackets : List (Nat × Nat)
  fromProxy : List Msg
  clientListener : Bool
  proxyListener : Bool

/-- `ifaces` are those of each VM. -/
def System.init (ifaces : Nat → List Interface) : System where
  server := Server.init
  clients := fun v => ({ ifaces := ifaces v } : RFClient).restart
  toServer := fun _ => []
  mapPackets := []
  fromProxy := []
  clientListener := true
  proxyListener := true

/-- One step of some thread, of the network or of a datapath. -/
inductive Event where
  -- A thread of the client puts a RouteMod in `rm_q`. Its id is always the client's own.
  | push (v : Nat) (rm : RouteMod)
  -- One step of the send loop.
  | send (v : Nat)
  | serverClient (o : Order) (v : Nat)
  | serverProxy (o : Order) (i : Nat)
  | dpWorker
  -- RFProxy takes a message and answers it if it is a RouteMod.
  | proxyRecv (i : Nat)
  | dpUp (ctId dpId dpPort : Nat)
  | dpDown (ctId dpId : Nat)
  | mapSend (v : Nat) (iface : Interface)
  -- A mapping packet comes to a virtual switch, and its controller reports it.
  | mapDeliver (i vsId vsPort : Nat)
  | clientRecv (v : Nat)
  | restart (v : Nat)

namespace System

def setClient (s : System) (v : Nat) (c : RFClient) : System :=
  { s with clients := Function.update s.clients v c }

def sendServer (s : System) (v : Nat) (msgs : List Msg) : System :=
  { s with toServer := Function.update s.toServer v (s.toServer v ++ msgs) }

/-- A step of the send loop of the client. -/
def clientSend (s : System) (v : Nat) : System :=
  let c := s.clients v
  match c.loop with
  | .check =>
    if c.rmOutstanding > max_rm_outstanding then s else s.setClient v { c with loop := .pop }
  | .pop =>
    match c.rmQ with
    | [] => s
    | rm :: rest =>
      (s.setClient v { c with rmQ := rest, loop := .count, sent := c.sent + 1 }).sendServer v [.routeMod rm]
  | .count => s.setClient v { c with rmOutstanding := c.rmOutstanding + 1, loop := .check }

variable (cfg : Config)

/-- RFServer's listener takes a message of the client. An exception ends it. -/
def serverClient (s : System) (o : Order) (v : Nat) : System :=
  match s.clientListener, s.toServer v with
  | true, msg :: rest =>
    let (server, res) := Server.process cfg o s.server msg
    { s with server := server, toServer := Function.update s.toServer v rest, clientListener := res.isOk }
  | _, _ => s

/-- The same for a message of RFProxy. -/
def serverProxy (s : System) (o : Order) (i : Nat) : System :=
  match s.proxyListener, s.fromProxy[i]? with
  | true, some msg =>
    let (server, res) := Server.process cfg o s.server msg
    { s with server := server, fromProxy := s.fromProxy.eraseIdx i, proxyListener := res.isOk }
  | _, _ => s

/-- RFProxy takes a message, and answers a RouteMod. -/
def proxyRecv (s : System) (i : Nat) : System :=
  match s.server.toProxy[i]? with
  | none => s
  | some (_, msg) =>
    let s := { s with server := { s.server with toProxy := s.server.toProxy.eraseIdx i } }
    match msg with
    | .routeMod _ => { s with fromProxy := s.fromProxy ++ [.routeModReply] }
    | .dataPlaneMap _ => s

/-- The packet has one byte for the port. -/
def mapSend (s : System) (v : Nat) (iface : Interface) : System :=
  if iface ∈ (s.clients v).ifaces ∧ iface.physical ∧ ¬ iface.active then
    { s with mapPackets := s.mapPackets ++ [(v, iface.port % 256)] }
  else s

/-- A mapping packet arrives at the virtual switch. -/
def mapDeliver (s : System) (i vsId vsPort : Nat) : System :=
  match s.mapPackets[i]? with
  | none => s
  | some (v, port) =>
    { s with mapPackets := s.mapPackets.eraseIdx i,
             fromProxy := s.fromProxy ++ [.virtualPlaneMap v port vsId vsPort] }

/-- The client takes a message of RFServer. -/
def clientRecv (s : System) (v : Nat) : System :=
  match s.server.toClient v with
  | [] => s
  | config :: rest =>
    let s := { s with server := { s.server with toClient := Function.update s.server.toClient v rest } }
    s.setClient v ((s.clients v).process v config)

/-- The client starts again, with new registrations. -/
def restart (s : System) (v : Nat) : System :=
  let c := (s.clients v).restart
  (s.setClient v c).sendServer v (c.portRegisters v)

def step (s : System) : Event → System
  | .push v rm =>
    let c := s.clients v
    s.setClient v { c with rmQ := c.rmQ ++ [rm.setId v] }
  | .send v => s.clientSend v
  | .serverClient o v => s.serverClient cfg o v
  | .serverProxy o i => s.serverProxy cfg o i
  | .dpWorker => { s with server := s.server.dpWorker }
  | .proxyRecv i => s.proxyRecv i
  | .dpUp c d p => { s with fromProxy := s.fromProxy ++ [.datapathPortRegister c d p] }
  | .dpDown c d => { s with fromProxy := s.fromProxy ++ [.datapathDown c d] }
  | .mapSend v iface => s.mapSend v iface
  | .mapDeliver i vs vp => s.mapDeliver i vs vp
  | .clientRecv v => s.clientRecv v
  | .restart v => s.restart v

end System

end RouteFlow
