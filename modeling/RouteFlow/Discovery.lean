import RouteFlow.Announcements
import RouteFlow.Lib.Handles

/-!
# Neighbour discovery

`resolveGateway`, `initiateND` and `stopND` of `FlowTable.cc`, beside the two threads that call them.
The resolver asks for a gateway after it has not found it, and the netlink thread stops asking after it
has stored it. Each thread can go on between the two steps of the other.
-/

namespace RouteFlow

open FlowTable Handles

/-- What the system calls of `initiateND` give. -/
inductive Sock where
  -- `socket()` fails.
  | none
  -- `fcntl()` fails.
  | blocking (fd : Nat)
  | connecting (fd : Nat)
deriving DecidableEq

/-- `ledger` has the sockets that were opened and closed. The code keeps no such list. -/
structure Discovery where
  thread : ResolverThread := {}
  -- The resolver is about to call `resolveGateway` for this route.
  resolving : Option RouteEntry := none
  -- The netlink thread is about to call `stopND` for this host.
  stopping : Option Text := none
  pendingNeighbours : AList fun _ : Text => Nat := ∅
  -- The open descriptors of the process.
  fds : Pool := ⟨[], []⟩
  ledger : List (Posting Text) := []

namespace Discovery

section Steps

variable (vmId : Nat) (inet : Inet)

/-- `FlowTable::initiateND`: an address that is none makes no socket. -/
def initiateND (s : Discovery) (hostAddr : Text) (sock : Sock) : Option Nat × Discovery :=
  if (inet.pton .ipv4 hostAddr).isNone && (inet.pton .ipv6 hostAddr).isNone then (none, s)
  else
    match sock with
    | .none => (none, s)
    | .blocking fd => (none, { s with fds := (s.fds.take fd).close fd })
    | .connecting fd => (some fd, { s with fds := s.fds.take fd })

def stopND (s : Discovery) (host : Text) : Discovery :=
  match s.pendingNeighbours.lookup host with
  | some fd =>
    { s with
      pendingNeighbours := s.pendingNeighbours.erase host
      fds := s.fds.close fd
      ledger := s.ledger ++ [.closed host] }
  | none => s

/-- The caller does not look at the number that it returns. -/
def resolveGateway (s : Discovery) (gateway : IPAddress) (iface : Interface) (sock : Sock) : Discovery :=
  if !iface.active then s
  else
    let gatewayStr := gateway.toText inet
    if gatewayStr ∈ s.pendingNeighbours then s
    else
      match s.initiateND inet gatewayStr sock with
      | (none, s) => s
      | (some fd, s) =>
        { s with
          pendingNeighbours := s.pendingNeighbours.insert gatewayStr fd
          ledger := s.ledger ++ [.opened gatewayStr] }

/-- The route whose gateway the next look of the resolver does not find. -/
def unfound (s : ResolverThread) : Option RouteEntry :=
  match s.place with
  | .sweep (key :: _) _ =>
    let ft := s.ft.openRoute key
    let re := (ft.routeTable.lookup key).getD blankRoute
    if ft.findHost inet re.gateway = MAC_ADDR_NONE then some re else none
  | _ => none

inductive Act where
  | route (pr : PendingRoute)
  | host (hentry : HostEntry)
  | stop
  | look
  | resolve (sock : Sock)
  -- Other code opens and closes its descriptors.
  | elsewhere (theirs : List Nat)

/-- A thread that is at another call does nothing. -/
def step (s : Discovery) : Act → Discovery
  | .route pr => { s with thread := s.thread.step vmId inet (.route pr) }
  | .host hentry =>
    match s.stopping with
    | some _ => s
    | none =>
      { s with
        thread := s.thread.step vmId inet (.host hentry)
        stopping := some (hentry.address.toText inet) }
  | .stop =>
    match s.stopping with
    | some host => { s.stopND host with stopping := none }
    | none => s
  | .look =>
    match s.resolving with
    | some _ => s
    | none => { s with thread := s.thread.step vmId inet .look, resolving := unfound inet s.thread }
  | .resolve sock =>
    match s.resolving with
    | some re => { s.resolveGateway inet re.gateway re.interface sock with resolving := none }
    | none => s
  | .elsewhere theirs => { s with fds := { s.fds with theirs := theirs } }

def run (acts : List Act) : Discovery := Run.run (step vmId inet) {} acts

end Steps

variable {vmId : Nat} {inet : Inet}

/-! ## What the calls change -/

/-- A call of the sockets leaves the threads where they are. -/
structure SameThreads (s s' : Discovery) : Prop where
  thread : s'.thread = s.thread
  resolving : s'.resolving = s.resolving
  stopping : s'.stopping = s.stopping

theorem stopND_sameThreads (s : Discovery) (host : Text) : SameThreads s (s.stopND host) := by
  unfold stopND
  split <;> exact ⟨rfl, rfl, rfl⟩

theorem initiateND_cases (s : Discovery) (hostAddr : Text) (sock : Sock) :
    (∃ fds, s.initiateND inet hostAddr sock = (none, { s with fds := fds }) ∧
      (fds = s.fds ∨ ∃ fd, sock = .blocking fd ∧ fds = (s.fds.take fd).close fd)) ∨
    ∃ fd, sock = .connecting fd ∧ s.initiateND inet hostAddr sock =
      (some fd, { s with fds := s.fds.take fd }) := by
  unfold initiateND
  split
  · exact Or.inl ⟨s.fds, rfl, Or.inl rfl⟩
  · cases sock with
    | none => exact Or.inl ⟨s.fds, rfl, Or.inl rfl⟩
    | blocking fd => exact Or.inl ⟨_, rfl, Or.inr ⟨fd, rfl, rfl⟩⟩
    | connecting fd => exact Or.inr ⟨fd, rfl, rfl⟩

theorem resolveGateway_cases (s : Discovery) (gateway : IPAddress) (iface : Interface) (sock : Sock) :
    (∃ fds, s.resolveGateway inet gateway iface sock = { s with fds := fds } ∧
      (fds = s.fds ∨ ∃ fd, sock = .blocking fd ∧ fds = (s.fds.take fd).close fd)) ∨
    ∃ fd, sock = .connecting fd ∧ iface.active = true ∧ gateway.toText inet ∉ s.pendingNeighbours ∧
      s.resolveGateway inet gateway iface sock =
        { s with
          pendingNeighbours := s.pendingNeighbours.insert (gateway.toText inet) fd
          fds := s.fds.take fd
          ledger := s.ledger ++ [.opened (gateway.toText inet)] } := by
  unfold resolveGateway
  split
  · exact Or.inl ⟨s.fds, rfl, Or.inl rfl⟩
  · rename_i hactive
    dsimp only
    split
    · exact Or.inl ⟨s.fds, rfl, Or.inl rfl⟩
    · rename_i hnew
      rcases @initiateND_cases inet s (gateway.toText inet) sock with ⟨fds, heq, hfds⟩ | ⟨fd, hsock, heq⟩
      · rw [heq]
        exact Or.inl ⟨fds, rfl, hfds⟩
      · rw [heq]
        exact Or.inr ⟨fd, hsock, by simpa using hactive, hnew, rfl⟩

theorem resolveGateway_asks (hi : inet.Inverse) (s : Discovery) (gateway : IPAddress) {iface : Interface}
    (hactive : iface.active = true) (fd : Nat) :
    gateway.toText inet ∈ (s.resolveGateway inet gateway iface (.connecting fd)).pendingNeighbours := by
  have hpton : (inet.pton gateway.version (gateway.toText inet)).isSome := by
    unfold IPAddress.toText
    rw [hi gateway.version gateway.data gateway.length_eq]
    rfl
  have hvalid : ((inet.pton .ipv4 (gateway.toText inet)).isNone &&
    (inet.pton .ipv6 (gateway.toText inet)).isNone) =
      false := by
    cases hv : gateway.version with
    | ipv4 => simp [Option.isNone_eq_false_iff.mpr (hv ▸ hpton)]
    | ipv6 => simp [Option.isNone_eq_false_iff.mpr (hv ▸ hpton)]
  unfold resolveGateway
  rw [hactive]
  dsimp only
  split
  · contradiction
  · split
    · assumption
    · unfold initiateND
      rw [hvalid]
      exact (AList.mem_insert _).mpr (Or.inl rfl)

theorem resolveGateway_sameThreads (s : Discovery) (gateway : IPAddress) (iface : Interface) (sock : Sock) :
    SameThreads s (s.resolveGateway inet gateway iface sock) := by
  rcases @resolveGateway_cases inet s gateway iface sock with ⟨fds, heq, -⟩ | ⟨fd, -, -, -, heq⟩ <;>
    rw [heq] <;> exact ⟨rfl, rfl, rfl⟩

theorem resolveGateway_keeps {s : Discovery} {host : Text} (h : host ∈ s.pendingNeighbours)
    (gateway : IPAddress) (iface : Interface) (sock : Sock) :
    host ∈ (s.resolveGateway inet gateway iface sock).pendingNeighbours := by
  rcases @resolveGateway_cases inet s gateway iface sock with ⟨fds, heq, -⟩ | ⟨fd, -, -, -, heq⟩
  · rw [heq]
    exact h
  · rw [heq]
    exact (AList.mem_insert _).mpr (Or.inr h)

theorem mem_stopND {s : Discovery} {host h : Text} :
    h ∈ (s.stopND host).pendingNeighbours ↔ h ≠ host ∧ h ∈ s.pendingNeighbours := by
  unfold stopND
  cases hlookup : s.pendingNeighbours.lookup host with
  | some fd => exact AList.mem_erase
  | none =>
    refine ⟨fun hmem => ⟨?_, hmem⟩, And.right⟩
    rintro rfl
    exact AList.lookup_eq_none.mp hlookup hmem

/-! ## What a step can do -/

/-- What one step can do. -/
inductive Effect (vmId : Nat) (inet : Inet) (s : Discovery) : Act → Discovery → Prop where
  | route (pr : PendingRoute) :
    Effect vmId inet s (.route pr) { s with thread := s.thread.step vmId inet (.route pr) }
  | host (hentry : HostEntry) (hstop : s.stopping = none) :
    Effect vmId inet s (.host hentry) { s with
      thread := s.thread.step vmId inet (.host hentry)
      stopping := some (hentry.address.toText inet) }
  | stop (host : Text) (hstop : s.stopping = some host) :
    Effect vmId inet s .stop { s.stopND host with stopping := none }
  | look (hres : s.resolving = none) :
    Effect vmId inet s .look { s with
      thread := s.thread.step vmId inet .look
      resolving := unfound inet s.thread }
  | resolve (sock : Sock) (re : RouteEntry) (hres : s.resolving = some re) :
    Effect vmId inet s (.resolve sock)
      { s.resolveGateway inet re.gateway re.interface sock with resolving := none }
  | elsewhere (theirs : List Nat) :
    Effect vmId inet s (.elsewhere theirs) { s with fds := { s.fds with theirs := theirs } }
  -- The thread is at another call.
  | busy (a : Act) (hsock : ∀ sock, a = .resolve sock → s.resolving = none)
    (htheirs : ∀ theirs, a ≠ .elsewhere theirs) : Effect vmId inet s a s

theorem step_effect (s : Discovery) (a : Act) : Effect vmId inet s a (step vmId inet s a) := by
  cases a with
  | route pr => exact .route pr
  | host hentry =>
    unfold step
    cases hstop : s.stopping with
    | some host => exact .busy _ (by simp) (by simp)
    | none => exact .host hentry hstop
  | stop =>
    unfold step
    cases hstop : s.stopping with
    | some host => exact .stop host hstop
    | none => exact .busy _ (by simp) (by simp)
  | look =>
    unfold step
    cases hres : s.resolving with
    | some re => exact .busy _ (by simp) (by simp)
    | none => exact .look hres
  | resolve sock =>
    unfold step
    cases hres : s.resolving with
    | some re => exact .resolve sock re hres
    | none => exact .busy _ (fun _ _ => hres) (by simp)
  | elsewhere theirs => exact .elsewhere theirs

/-! ## The resolver thread -/

/-- The step of the resolver or netlink thread, for those that are none of the sockets. -/
def Act.thread : Act → Option ResolverThread.Act
  | .route pr => some (.route pr)
  | .host hentry => some (.host hentry)
  | .look => some .look
  | _ => none

theorem step_thread (s : Discovery) (a : Act) :
    (step vmId inet s a).thread = s.thread ∨
      ∃ t, a.thread = some t ∧ (step vmId inet s a).thread = s.thread.step vmId inet t := by
  have heffect := @step_effect vmId inet s a
  generalize step vmId inet s a = s' at heffect ⊢
  cases heffect with
  | route pr => exact Or.inr ⟨_, rfl, rfl⟩
  | host hentry hstop => exact Or.inr ⟨_, rfl, rfl⟩
  | stop host hstop => exact Or.inl (stopND_sameThreads s host).thread
  | look hres => exact Or.inr ⟨_, rfl, rfl⟩
  | resolve sock re hres => exact Or.inl (resolveGateway_sameThreads s re.gateway re.interface sock).thread
  | elsewhere theirs => exact Or.inl rfl
  | busy a hsock htheirs => exact Or.inl rfl

/-- The threads do what they do without the sockets. -/
theorem run_thread (acts : List Act) :
    ∃ tacts, tacts.Sublist (acts.filterMap Act.thread) ∧
      (run vmId inet acts).thread = ResolverThread.run vmId inet tacts := by
  induction acts using List.reverseRecOn with
  | nil => exact ⟨[], .slnil, rfl⟩
  | append_singleton acts a ih =>
    obtain ⟨tacts, hsub, hthread⟩ := ih
    have hnext : run vmId inet (acts ++ [a]) = step vmId inet (run vmId inet acts) a := Run.run_snoc _ _ _ _
    rw [hnext, List.filterMap_append]
    rcases step_thread (run vmId inet acts) a with hsame | ⟨t, ht, hstep⟩
    · exact ⟨tacts, hsub.trans (List.sublist_append_left _ _), hsame.trans hthread⟩
    · refine ⟨tacts ++ [t], hsub.append (by simp [ht]), ?_⟩
      rw [hstep, hthread]
      exact (Run.run_snoc _ _ _ _).symm

theorem step_placed {s : Discovery} (h : ResolverThread.Placed inet s.thread) (a : Act) :
    ResolverThread.Placed inet (step vmId inet s a).thread := by
  rcases step_thread s a with hsame | ⟨t, -, hstep⟩
  · rw [hsame]
    exact h
  · rw [hstep]
    exact ResolverThread.step_placed t h

/-! ## The sockets -/

/-- A socket gets a descriptor that is free, and other code opens none of ours. -/
def Admissible (s : Discovery) : Act → Prop
  | .resolve (.blocking fd) | .resolve (.connecting fd) => s.fds.Free fd
  | .elsewhere theirs => ∀ fd ∈ theirs, fd ∉ s.fds.ours
  | _ => True

instance (s : Discovery) (a : Act) : Decidable (Admissible s a) := by
  unfold Admissible
  split <;> infer_instance

/-- The invariant: the sockets are those that are pending, and the ledger balances. -/
structure Accounted (s : Discovery) : Prop where
  kept : Kept s.pendingNeighbours s.fds
  balanced : Balanced s.pendingNeighbours s.ledger

theorem Accounted.stopND {s : Discovery} (h : Accounted s) (host : Text) : Accounted (s.stopND host) := by
  unfold Discovery.stopND
  cases hlookup : s.pendingNeighbours.lookup host with
  | none => exact h
  | some fd =>
    refine ⟨h.kept.close hlookup, h.balanced.close ?_⟩
    exact AList.lookup_isSome.mp (Option.isSome_of_eq_some hlookup)

theorem stopND_theirs {s : Discovery} (h : Accounted s) (host : Text) :
    (s.stopND host).fds.theirs = s.fds.theirs := by
  unfold stopND
  cases hlookup : s.pendingNeighbours.lookup host with
  | none => rfl
  | some fd => exact h.kept.close_theirs hlookup

theorem Accounted.resolveGateway {s : Discovery} (h : Accounted s) (gateway : IPAddress)
    (iface : Interface) {sock : Sock} (hsock : Admissible s (.resolve sock)) :
    Accounted (s.resolveGateway inet gateway iface sock) ∧
      (s.resolveGateway inet gateway iface sock).fds.theirs = s.fds.theirs := by
  rcases @resolveGateway_cases inet s gateway iface sock with ⟨fds, heq, hfds⟩ | ⟨fd, rfl, -, hnew, heq⟩
  · have hsame : fds = s.fds := by
      rcases hfds with hsame | ⟨fd, rfl, hclosed⟩
      · exact hsame
      · rw [hclosed]
        exact Pool.take_close hsock
    rw [heq, hsame]
    exact ⟨h, rfl⟩
  · rw [heq]
    exact ⟨⟨h.kept.take hnew hsock, h.balanced.take hnew fd⟩, rfl⟩

/-- What other code has open after a step. -/
def Act.theirs (before : List Nat) : Act → List Nat
  | .elsewhere theirs => theirs
  | _ => before

theorem step_accounted {s : Discovery} {a : Act} (ha : Admissible s a) (h : Accounted s) :
    Accounted (step vmId inet s a) ∧ (step vmId inet s a).fds.theirs = a.theirs s.fds.theirs := by
  have heffect := @step_effect vmId inet s a
  generalize step vmId inet s a = s' at heffect ⊢
  cases heffect with
  | route pr => exact ⟨⟨h.kept, h.balanced⟩, rfl⟩
  | host hentry hstop => exact ⟨⟨h.kept, h.balanced⟩, rfl⟩
  | stop host hstop =>
    have hstopped := h.stopND host
    exact ⟨⟨hstopped.kept, hstopped.balanced⟩, stopND_theirs h host⟩
  | look hres => exact ⟨⟨h.kept, h.balanced⟩, rfl⟩
  | resolve sock re hres =>
    obtain ⟨hasked, htheirs⟩ := @Accounted.resolveGateway inet s h re.gateway re.interface sock ha
    exact ⟨⟨hasked.kept, hasked.balanced⟩, htheirs⟩
  | elsewhere theirs => exact ⟨⟨h.kept.elsewhere ha, h.balanced⟩, rfl⟩
  | busy a hsock htheirs =>
    refine ⟨h, ?_⟩
    cases a with
    | elsewhere theirs => exact absurd rfl (htheirs theirs)
    | _ => rfl

/-- The netlink thread hears of the host. -/
def Act.hears (inet : Inet) (host : Text) : Act → Bool
  | .host hentry => hentry.address.toText inet = host
  | _ => false

/-- A socket is closed only after its host was heard of once more. -/
def Stopped (inet : Inet) (acts : List Act) (s : Discovery) : Prop :=
  ∀ host, s.ledger.count (.closed host) + (if s.stopping = some host then 1 else 0) ≤
    acts.countP (Act.hears inet host)

theorem resolveGateway_closed (s : Discovery) (gateway : IPAddress) (iface : Interface) (sock : Sock)
    (host : Text) :
    (s.resolveGateway inet gateway iface sock).ledger.count (.closed host) =
      s.ledger.count (.closed host) := by
  rcases @resolveGateway_cases inet s gateway iface sock with ⟨fds, heq, -⟩ | ⟨fd, -, -, -, heq⟩
  · rw [heq]
  · rw [heq]
    simp [List.count_append]

theorem stopND_closed (s : Discovery) (host h : Text) :
    (s.stopND host).ledger.count (.closed h) ≤ s.ledger.count (.closed h) + if host = h then 1 else 0 := by
  unfold stopND
  split
  · by_cases heq : host = h <;> simp [List.count_append, heq]
  · exact Nat.le_add_right _ _

theorem step_stopped {acts : List Act} {s : Discovery} (a : Act) (h : Stopped inet acts s) :
    Stopped inet (acts ++ [a]) (step vmId inet s a) := by
  intro host
  have hold := h host
  rw [List.countP_append]
  have heffect := @step_effect vmId inet s a
  generalize step vmId inet s a = s' at heffect ⊢
  cases heffect with
  | host hentry hstop =>
    rw [hstop] at hold
    simp only [reduceCtorEq, if_false, Nat.add_zero, Option.some.injEq] at hold ⊢
    by_cases heq : hentry.address.toText inet = host
    · simpa [Act.hears, heq] using hold
    · simpa [Act.hears, heq] using hold
  | stop stopping hstop =>
    have hclosed := stopND_closed s stopping host
    rw [hstop] at hold
    simp only [Option.some.injEq, reduceCtorEq, if_false, Nat.add_zero] at hold ⊢
    omega
  | resolve sock re hres =>
    dsimp only
    rw [resolveGateway_closed, (resolveGateway_sameThreads s re.gateway re.interface sock).stopping]
    exact Nat.le_add_right_of_le hold
  | route _ | look _ | elsewhere _ | busy _ _ _ => exact Nat.le_add_right_of_le hold

/-- However the threads take turns, the open sockets are those of the pending neighbours, one for each,
and no descriptor of other code is closed. A gateway is asked for once, and once more for each time that
it is heard of. -/
theorem sockets_accounted (vmId : Nat) (inet : Inet) (acts : List Act)
    (h : Run.Along (step vmId inet) Admissible {} acts) :
    Kept (run vmId inet acts).pendingNeighbours (run vmId inet acts).fds ∧
    (run vmId inet acts).fds.theirs = acts.foldl Act.theirs [] ∧
    ∀ host,
      (run vmId inet acts).ledger.count (.opened host) =
        (run vmId inet acts).ledger.count (.closed host) +
          (if host ∈ (run vmId inet acts).pendingNeighbours then 1 else 0) ∧
      (run vmId inet acts).ledger.count (.opened host) ≤ acts.countP (Act.hears inet host) + 1 := by
  have hrun : Accounted (run vmId inet acts) ∧ (run vmId inet acts).fds.theirs = acts.foldl Act.theirs [] ∧
      Stopped inet acts (run vmId inet acts) := by
    refine Run.history_invariant (I := fun acts s => Accounted s ∧ s.fds.theirs = acts.foldl Act.theirs [] ∧
      Stopped inet acts s) ?_ ?_ acts h
    · exact ⟨⟨Kept.empty [], Balanced.empty⟩, rfl, fun host => by simp⟩
    · rintro acts s a ha ⟨hacc, htheirs, hstopped⟩
      obtain ⟨hacc', htheirs'⟩ := @step_accounted vmId inet s a ha hacc
      refine ⟨hacc', ?_, step_stopped a hstopped⟩
      rw [htheirs', htheirs, List.foldl_append]
      rfl
  obtain ⟨hacc, htheirs, hstopped⟩ := hrun
  refine ⟨hacc.kept, htheirs, fun host => ⟨hacc.balanced host, ?_⟩⟩
  have hbalance := hacc.balanced host
  have hclosed := hstopped host
  split at hbalance <;> omega

/-- 10.1.0.0/16 comes through 192.168.0.1, which the resolver does not find. -/
def notFound : List Act :=
  (updateRouteTable [FlowTable.eth1] (prefixVia 1) .new).toList.map .route ++ [.look, .look, .look, .look]

/-- It is asked for, and heard of then. -/
def askedAndHeard : List Act :=
  .elsewhere [3] :: notFound ++
    [.resolve (.connecting 4), .host ⟨ResolverThread.viaAddress, 0x31, FlowTable.eth1⟩, .stop]

theorem sockets_accounted_heard :
    (run 1 plainInet askedAndHeard).fds.theirs = [3] ∧
      (run 1 plainInet askedAndHeard).ledger.count (.opened "192.168.0.1".toList) ≤ 2 := by
  obtain ⟨-, htheirs, hledger⟩ := sockets_accounted 1 plainInet askedAndHeard (by decide +kernel)
  exact ⟨htheirs, (hledger "192.168.0.1".toList).2.trans (by decide +kernel)⟩

/-! ## Gateways that are known -/

/-- A gateway that is known is not asked for any longer, once the `stopND` that is due is done. -/
def AllStopped (inet : Inet) (s : Discovery) : Prop :=
  ∀ a : IPAddress, a.toText inet ∈ s.pendingNeighbours → ResolverThread.Known inet s.thread.ft a →
    s.stopping = some (a.toText inet)

/-- The gateway that gets a socket has not become known since the resolver looked, or its `stopND` is
still due. -/
def InTime (inet : Inet) (s : Discovery) (a : Act) : Prop :=
  ∀ fd re, a = .resolve (.connecting fd) → s.resolving = some re → re.interface.active = true →
    ResolverThread.Known inet s.thread.ft re.gateway → s.stopping = some (re.gateway.toText inet)

theorem known_congr {ft : FlowTable} {a b : IPAddress} (h : a.toText inet = b.toText inet)
    (ha : ResolverThread.Known inet ft a) : ResolverThread.Known inet ft b := by
  unfold ResolverThread.Known findHost at *
  rw [← h]
  exact ha

theorem known_of_host {s : ResolverThread} {hentry : HostEntry} {a : IPAddress}
    (hne : a.toText inet ≠ hentry.address.toText inet)
    (h : ResolverThread.Known inet (s.step vmId inet (.host hentry)).ft a) :
    ResolverThread.Known inet s.ft a := by
  have hhosts : (s.step vmId inet (.host hentry)).ft.hostTable = _ :=
    updateHostTable_hostTable vmId inet s.ft hentry
  unfold ResolverThread.Known findHost at *
  rw [hhosts, AList.lookup_insert_ne hne] at h
  exact h

theorem AllStopped.resolve (hi : inet.Inverse) {s : Discovery} {re : RouteEntry}
    (hres : s.resolving = some re) (h : AllStopped inet s) (sock : Sock) :
    AllStopped inet { s.resolveGateway inet re.gateway re.interface sock with resolving := none } ↔
      InTime inet s (.resolve sock) := by
  obtain ⟨hthread, -, hstopping⟩ := @resolveGateway_sameThreads inet s re.gateway re.interface sock
  unfold AllStopped
  dsimp only
  rw [hthread, hstopping]
  constructor
  · intro hall fd re' hsock hre hactive hknown
    obtain rfl : re = re' := Option.some.inj (hres.symm.trans hre)
    obtain rfl : sock = .connecting fd := by simpa using hsock
    exact hall re.gateway (resolveGateway_asks hi s re.gateway hactive fd) hknown
  · intro htime a hmem hknown
    rcases @resolveGateway_cases inet s re.gateway re.interface sock with
      ⟨fds, heq, -⟩ | ⟨fd, rfl, hactive, -, heq⟩
    · rw [heq] at hmem
      exact h a hmem hknown
    · rw [heq] at hmem
      rcases (AList.mem_insert _).mp hmem with hgateway | hmem
      · rw [hgateway]
        exact htime fd re rfl hres hactive (known_congr hgateway hknown)
      · exact h a hmem hknown

theorem step_allStopped (hi : inet.Inverse) {s : Discovery} (hp : ResolverThread.Placed inet s.thread)
    (h : AllStopped inet s) (a : Act) : AllStopped inet (step vmId inet s a) ↔ InTime inet s a := by
  have heffect := @step_effect vmId inet s a
  generalize step vmId inet s a = s' at heffect ⊢
  cases heffect with
  | resolve sock re hres => exact h.resolve hi hres sock
  | route pr => exact ⟨fun _ => by rintro _ _ ⟨⟩, fun _ => h⟩
  | elsewhere theirs => exact ⟨fun _ => by rintro _ _ ⟨⟩, fun _ => h⟩
  | host hentry hstop =>
    refine ⟨fun _ => by rintro _ _ ⟨⟩, fun _ a hmem hknown => ?_⟩
    by_cases heq : a.toText inet = hentry.address.toText inet
    · exact congrArg some heq.symm
    · have hdue := h a hmem (known_of_host heq hknown)
      rw [hstop] at hdue
      cases hdue
  | stop host hstop =>
    obtain ⟨hthread, -, -⟩ := stopND_sameThreads s host
    refine ⟨fun _ => by rintro _ _ ⟨⟩, fun _ a hmem hknown => ?_⟩
    obtain ⟨hne, hmem⟩ := mem_stopND.mp hmem
    dsimp only at hknown
    rw [hthread] at hknown
    have hdue := h a hmem hknown
    exact absurd (Option.some.inj (hdue.symm.trans hstop)) hne
  | look hres =>
    refine ⟨fun _ => by rintro _ _ ⟨⟩, fun _ a hmem hknown => ?_⟩
    have hhosts : (s.thread.step vmId inet .look).ft.hostTable = s.thread.ft.hostTable :=
      (ResolverThread.look_frame hp).1
    exact h a hmem (ResolverThread.known_of_hostTable hhosts.symm hknown)
  | busy a hsock htheirs =>
    refine ⟨fun _ fd re heq hres => ?_, fun _ => h⟩
    rw [hsock _ heq] at hres
    cases hres

/-- No known gateway is left with a socket exactly if no socket is opened for a gateway that has become
known, and been stopped, since the resolver looked for it. -/
theorem known_gateways_stopped_iff (vmId : Nat) (inet : Inet) (hi : inet.Inverse) (acts : List Act) :
    Run.Always (step vmId inet) (AllStopped inet) {} acts ↔ Run.Along (step vmId inet)
      (InTime inet) {} acts := by
  apply Run.always_iff_along (I := fun s : Discovery => ResolverThread.Placed inet s.thread)
  · exact fun s a hp => step_placed hp a
  · exact fun s a hp h => step_allStopped hi hp h a
  · exact ResolverThread.placed_init
  · intro a hmem
    exact absurd hmem (AList.notMem_empty _)

/-- It is heard of between the look and the call. -/
def askedTooLate : List Act :=
  notFound ++ [.host ⟨ResolverThread.viaAddress, 0x31, FlowTable.eth1⟩, .stop, .resolve (.connecting 4)]

theorem known_gateways_stopped_iff_tooLate :
    ¬ Run.Along (step 1 plainInet) (InTime plainInet) {} askedTooLate := by
  rw [← known_gateways_stopped_iff 1 plainInet plainInet_inverse]
  intro hall
  have hlast : AllStopped plainInet (run 1 plainInet askedTooLate) := hall.last
  have hdue := hlast ResolverThread.viaAddress (by decide +kernel) (by
    unfold ResolverThread.Known
    decide +kernel)
  revert hdue
  decide +kernel

/-! ## Every gateway is asked for -/

/-- Nothing more needs to be done for the gateway of the route. -/
def Settled (inet : Inet) (s : Discovery) (re : RouteEntry) : Prop :=
  re.interface.active = false ∨ re.gateway.toText inet ∈ s.pendingNeighbours ∨
    re.gateway.toText inet ∈ s.thread.ft.hostTable

/-- The routes that the sweep has yet to look at, and those that it has sent. -/
def sweeping : Place → Option (List Text)
  | .sweep todo resolved => some (todo ++ resolved)
  | .resend key _ todo resolved => some (key :: todo ++ resolved)
  | _ => none

/-- The routes that the sweep has passed are settled. -/
structure Swept (inet : Inet) (s : Discovery) : Prop where
  asked : ∀ rest, sweeping s.thread.place = some rest → ∀ key ∈ s.thread.ft.unresolvedRoutes, key ∉ rest →
    ∃ re, s.thread.ft.routeTable.lookup key = some re ∧ (s.resolving = some re ∨ Settled inet s re)
  heard : ∀ host, s.stopping = some host → host ∈ s.thread.ft.hostTable

theorem Settled.mono {s s' : Discovery} {re : RouteEntry} (h : Settled inet s re)
    (hpending : ∀ host ∈ s.pendingNeighbours, host ∈ s'.pendingNeighbours ∨ host ∈ s'.thread.ft.hostTable)
    (hhosts : ∀ host ∈ s.thread.ft.hostTable, host ∈ s'.thread.ft.hostTable) : Settled inet s' re := by
  rcases h with hinactive | hmem | hmem
  · exact Or.inl hinactive
  · exact Or.inr (hpending _ hmem)
  · exact Or.inr (Or.inr (hhosts _ hmem))

theorem Swept.frame {s s' : Discovery} (h : Swept inet s) (hplace : s'.thread.place = s.thread.place)
    (htable : s'.thread.ft.routeTable = s.thread.ft.routeTable)
    (hunresolved : s'.thread.ft.unresolvedRoutes = s.thread.ft.unresolvedRoutes)
    (hresolving : ∀ re, s.resolving = some re → s'.resolving = some re ∨ Settled inet s' re)
    (hpending : ∀ host ∈ s.pendingNeighbours, host ∈ s'.pendingNeighbours ∨ host ∈ s'.thread.ft.hostTable)
    (hhosts : ∀ host ∈ s.thread.ft.hostTable, host ∈ s'.thread.ft.hostTable)
    (hheard : ∀ host, s'.stopping = some host → host ∈ s'.thread.ft.hostTable) : Swept inet s' := by
  refine ⟨fun rest hrest key hkey hnot => ?_, hheard⟩
  rw [hplace] at hrest
  rw [hunresolved] at hkey
  obtain ⟨re, hre, hasked⟩ := h.asked rest hrest key hkey hnot
  refine ⟨re, htable ▸ hre, ?_⟩
  rcases hasked with hres | hsettled
  · exact hresolving re hres
  · exact Or.inr (hsettled.mono hpending hhosts)

theorem Swept.look {s : Discovery} (hp : ResolverThread.Placed inet s.thread) (hres : s.resolving = none)
    (h : Swept inet s) :
    Swept inet { s with thread := s.thread.step vmId inet .look, resolving := unfound inet s.thread } := by
  have hhosts : (s.thread.step vmId inet .look).ft.hostTable = s.thread.ft.hostTable :=
    (ResolverThread.look_frame hp).1
  refine ⟨?_, fun host hstop => hhosts ▸ h.heard host hstop⟩
  have hsettled : ∀ re resolving, Settled inet s re →
      Settled inet { s with thread := s.thread.step vmId inet .look, resolving := resolving } re :=
    fun re resolving hre => hre.mono (fun host hmem => Or.inl hmem) fun host hmem => by
      rw [AList.mem_keys] at hmem ⊢
      dsimp only
      rw [hhosts]
      exact hmem
  unfold unfound
  intro rest hrest key hkey hnot
  change sweeping (s.thread.look vmId inet).place = some rest at hrest
  change key ∈ (s.thread.look vmId inet).ft.unresolvedRoutes at hkey
  change ∃ re, (s.thread.look vmId inet).ft.routeTable.lookup key = some re ∧ _
  cases hplace : s.thread.place with
  | drain =>
    cases hpending : s.thread.ft.pendingRoutes with
    | nil =>
      -- The sweep begins, with all routes before it.
      rw [ResolverThread.look_drain_nil hplace hpending] at hrest hkey
      obtain rfl := Option.some.inj hrest
      exact absurd (List.mem_append_left _ hkey) hnot
    | cons pr pending =>
      rw [ResolverThread.look_drain_cons hplace hpending] at hrest
      have hno : sweeping (ResolverThread.take inet
          { s.thread with ft := { s.thread.ft with pendingRoutes := pending } } pr).place = none := by
        unfold ResolverThread.take
        dsimp only
        split <;> (try split) <;> simp [sweeping, hplace]
      rw [hno] at hrest
      cases hrest
  | check re =>
    rw [ResolverThread.look_check_eq hplace] at hrest
    split at hrest <;> cases hrest
  | send mod re =>
    rw [ResolverThread.look_send_eq hplace] at hrest
    cases hrest
  | sweep todo resolved =>
    have hasked := h.asked (todo ++ resolved) (by rw [hplace]; rfl)
    cases todo with
    | nil =>
      rw [ResolverThread.look_sweep_nil hplace] at hrest
      cases hrest
    | cons first todo =>
      obtain ⟨-, htodo⟩ := hp.at_place hplace
      have hmem := hp.listed.mem_table first (htodo first List.mem_cons_self)
      obtain ⟨e, he⟩ := exists_lookup hmem
      rw [ResolverThread.look_sweep_cons hplace hmem he] at hrest hkey ⊢
      unfold openRoute
      simp only [if_pos hmem, he, Option.getD_some]
      by_cases hfound : s.thread.ft.findHost inet e.gateway = MAC_ADDR_NONE
      · rw [if_pos hfound] at hrest ⊢
        obtain rfl := Option.some.inj hrest
        by_cases hfirst : key = first
        · subst hfirst
          exact ⟨e, he, Or.inl rfl⟩
        · obtain ⟨re, hre, hold⟩ := hasked key hkey (by simpa [hfirst] using hnot)
          rw [hres] at hold
          exact ⟨re, hre, Or.inr (hsettled re _ (hold.resolve_left (by simp)))⟩
      · rw [if_neg hfound] at hrest ⊢
        obtain rfl := Option.some.inj hrest
        obtain ⟨re, hre, hold⟩ := hasked key hkey (by simpa using hnot)
        rw [hres] at hold
        exact ⟨re, hre, Or.inr (hsettled re _ (hold.resolve_left (by simp)))⟩
  | resend first e todo resolved =>
    have hasked := h.asked (first :: todo ++ resolved) (by rw [hplace]; rfl)
    have hsame := @sendRouteToHw_sameRoutes inet vmId s.thread.ft .add e
    rw [ResolverThread.look_resend_eq hplace] at hrest hkey ⊢
    change key ∈ (s.thread.ft.sendRouteToHw vmId inet .add e).unresolvedRoutes at hkey
    change ∃ re, (s.thread.ft.sendRouteToHw vmId inet .add e).routeTable.lookup key = some re ∧ _
    rw [hsame.unresolved] at hkey
    rw [hsame.table]
    obtain rfl := Option.some.inj hrest
    obtain ⟨re, hre, hold⟩ := hasked key hkey (by
      simp only [List.mem_append, List.mem_cons, List.not_mem_nil, or_false] at hnot ⊢
      tauto)
    rw [hres] at hold
    exact ⟨re, hre, Or.inr (hsettled re _ (hold.resolve_left (by simp)))⟩

theorem step_swept (hi : inet.Inverse) {s : Discovery} (hp : ResolverThread.Placed inet s.thread) {a : Act}
    (ha : ∀ sock, a = .resolve sock → ∃ fd, sock = .connecting fd) (h : Swept inet s) :
    Swept inet (step vmId inet s a) := by
  have heffect := @step_effect vmId inet s a
  generalize step vmId inet s a = s' at heffect ⊢
  cases heffect with
  | route pr => exact h.frame rfl rfl rfl (fun _ => Or.inl) (fun _ => Or.inl) (fun _ => id) h.heard
  | elsewhere theirs => exact ⟨h.asked, h.heard⟩
  | busy a hsock htheirs => exact h
  | look hres => exact h.look hp hres
  | host hentry hstop =>
    have hsame := @updateHostTable_sameRoutes inet vmId s.thread.ft hentry
    have hhosts : (s.thread.step vmId inet (.host hentry)).ft.hostTable = _ :=
      updateHostTable_hostTable vmId inet s.thread.ft hentry
    have hgrows : ∀ host ∈ s.thread.ft.hostTable,
      host ∈ (s.thread.step vmId inet (.host hentry)).ft.hostTable := by
      intro host hmem
      rw [hhosts]
      exact (AList.mem_insert _).mpr (Or.inr hmem)
    refine h.frame rfl hsame.table hsame.unresolved (fun _ => Or.inl) (fun _ => Or.inl) hgrows ?_
    rintro host hstopping
    obtain rfl := Option.some.inj hstopping
    dsimp only
    rw [hhosts]
    exact (AList.mem_insert _).mpr (Or.inl rfl)
  | stop host hstop =>
    obtain ⟨hthread, hresolving, -⟩ := stopND_sameThreads s host
    refine h.frame (congrArg _ hthread) ?_ ?_ ?_ ?_ ?_ (by simp)
    · exact congrArg (·.ft.routeTable) hthread
    · exact congrArg (·.ft.unresolvedRoutes) hthread
    · exact fun re hres => Or.inl (hresolving.trans hres)
    · -- The host that is stopped has been stored.
      intro other hmem
      dsimp only
      rw [hthread]
      by_cases heq : other = host
      · exact Or.inr (heq ▸ h.heard host hstop)
      · exact Or.inl (mem_stopND.mpr ⟨heq, hmem⟩)
    · dsimp only
      rw [hthread]
      exact fun _ => id
  | resolve sock re hres =>
    obtain ⟨fd, rfl⟩ := ha sock rfl
    obtain ⟨hthread, -, hstopping⟩ :=
      @resolveGateway_sameThreads inet s re.gateway re.interface (.connecting fd)
    refine h.frame (congrArg _ hthread) ?_ ?_ ?_ ?_ ?_ ?_
    · exact congrArg (·.ft.routeTable) hthread
    · exact congrArg (·.ft.unresolvedRoutes) hthread
    · intro re' hres'
      obtain rfl : re = re' := Option.some.inj (hres.symm.trans hres')
      cases hactive : re.interface.active with
      | false => exact Or.inr (Or.inl hactive)
      | true => exact Or.inr (Or.inr (Or.inl (resolveGateway_asks hi s re.gateway hactive fd)))
    · exact fun host hmem => Or.inl (resolveGateway_keeps hmem _ _ _)
    · dsimp only
      rw [hthread]
      exact fun _ => id
    · intro host hstop
      dsimp only at hstop ⊢
      rw [hthread]
      rw [hstopping] at hstop
      exact h.heard host hstop

theorem run_swept (vmId : Nat) (hi : inet.Inverse) (acts : List Act)
    (hsock : ∀ sock, .resolve sock ∈ acts → ∃ fd, sock = .connecting fd) :
    ResolverThread.Placed inet (run vmId inet acts).thread ∧ Swept inet (run vmId inet acts) := by
  induction acts using List.reverseRecOn with
  | nil => exact ⟨ResolverThread.placed_init, by simp [run, sweeping], by simp [run]⟩
  | append_singleton acts a ih =>
    obtain ⟨hp, hswept⟩ := ih fun sock hmem => hsock sock (List.mem_append_left _ hmem)
    have hnext : run vmId inet (acts ++ [a]) = step vmId inet (run vmId inet acts) a := Run.run_snoc _ _ _ _
    rw [hnext]
    refine ⟨step_placed hp a, step_swept hi hp ?_ hswept⟩
    rintro sock rfl
    exact hsock sock (by simp)

/-- At the end of each sweep, whatever the netlink thread did meanwhile, each route that was not sent
waits for a gateway that is asked for or has been heard of, unless its interface was down when the route
came. -/
theorem sweep_asks (vmId : Nat) (inet : Inet) (hi : inet.Inverse) (acts : List Act)
    (hsock : ∀ sock, .resolve sock ∈ acts → ∃ fd, sock = .connecting fd) {resolved : List Text}
    (hplace : (run vmId inet acts).thread.place = .sweep [] resolved)
    (hres : (run vmId inet acts).resolving = none) :
    ∀ key ∈ (run vmId inet acts).thread.ft.unresolvedRoutes, key ∉ resolved →
      ∃ re, (run vmId inet acts).thread.ft.routeTable.lookup key = some re ∧
        (re.interface.active = false ∨ re.gateway.toText inet ∈ (run vmId inet acts).pendingNeighbours ∨
          re.gateway.toText inet ∈ (run vmId inet acts).thread.ft.hostTable) := by
  have hswept := (run_swept vmId hi acts hsock).2
  intro key hkey hnot
  obtain ⟨re, hre, hasked⟩ := hswept.asked resolved (by rw [hplace]; rfl) key hkey hnot
  rw [hres] at hasked
  exact ⟨re, hre, hasked.resolve_left (by simp)⟩

def askedFor : List Act := notFound ++ [.resolve (.connecting 4)]

theorem sweep_asks_askedFor :
    (run 1 plainInet askedFor).thread.ft.unresolvedRoutes ≠ [] ∧
      ∀ key ∈ (run 1 plainInet askedFor).thread.ft.unresolvedRoutes,
        ∃ re, (run 1 plainInet askedFor).thread.ft.routeTable.lookup key = some re ∧
          (re.interface.active = false ∨ re.gateway.toText plainInet ∈
            (run 1 plainInet askedFor).pendingNeighbours ∨ re.gateway.toText plainInet ∈
            (run 1 plainInet askedFor).thread.ft.hostTable) := by
  have hsock : ∀ sock, .resolve sock ∈ askedFor → ∃ fd, sock = .connecting fd := by
    intro sock hmem
    simp only [askedFor, notFound, List.mem_append, List.mem_map, List.mem_cons, List.not_mem_nil,
      or_false] at hmem
    rcases hmem with (⟨pr, -, hpr⟩ | hlook) | hres
    · cases hpr
    · rcases hlook with h | h | h | h <;> cases h
    · cases hres
      exact ⟨4, rfl⟩
  have hplace : (run 1 plainInet askedFor).thread.place = .sweep [] [] := by decide +kernel
  have hresolving : (run 1 plainInet askedFor).resolving = none := by decide +kernel
  refine ⟨by decide +kernel, fun key hkey => ?_⟩
  exact sweep_asks 1 plainInet plainInet_inverse askedFor hsock hplace hresolving key hkey List.not_mem_nil

end Discovery

end RouteFlow
