import RouteFlow.Lib.Conveyor
import RouteFlow.Messages

/-!
# Messages over ZeroMQ

Each process has one external socket and one thread that owns it. The thread carries messages from the
mailbox of the process to that socket, and from the socket to the threads that listen on a channel. C++
does so frame by frame, Python message by message.
-/

namespace RouteFlow.ZeroMq

abbrev Frame := List Byte

/-- What a socket reads in C++: a frame, and whether more of the same message follow. -/
abbrev Frames := List (Frame × Bool)

abbrev Parts := List Frame

/-- The frames of a message. -/
def frames : Parts → Frames
  | [] => []
  | [f] => [(f, false)]
  | f :: g :: parts => (f, true) :: frames (g :: parts)

/-! ## Frame by frame -/

namespace Cpp

/-- Passes on what is left of a message. -/
def forwardRest : Frames → Frames × Frames
  | [] => ([], [])
  | (f, false) :: incoming => ([(f, false)], incoming)
  | (f, true) :: incoming => ((f, true) :: (forwardRest incoming).1, (forwardRest incoming).2)

/-- Drops what is left of a message. -/
def skipRest : Frames → Frames
  | [] => []
  | (_, false) :: incoming => incoming
  | (_, true) :: incoming => skipRest incoming

/-- From the external socket: what goes to the publisher, and what is not read yet. -/
def fromExternal : Frames → Frames × Frames
  | [] => ([], [])
  | (_, false) :: incoming => ([], incoming)
  | (addr, true) :: (channel, false) :: incoming => ([(channel, true), (addr, false)], incoming)
  | (addr, true) :: (channel, true) :: incoming =>
    ((channel, true) :: (addr, true) :: (forwardRest incoming).1, (forwardRest incoming).2)
  | [(_, true)] => ([], [])

/-- From the mailbox: what goes to the external socket, if the message has four frames. -/
def fromMailbox : Frames → Option Parts × Frames
  | (address, true) :: (channel, true) :: (type, true) :: (payload, false) :: incoming =>
    (some [address, channel, type, payload], incoming)
  | (_, true) :: (_, true) :: (_, true) :: (_, true) :: incoming => (none, skipRest incoming)
  | (_, false) :: incoming => (none, incoming)
  | (_, true) :: (_, false) :: incoming => (none, incoming)
  | (_, true) :: (_, true) :: (_, false) :: incoming => (none, incoming)
  | _ => (none, [])

end Cpp

structure Delivery where
  channel : Frame
  sender : Frame
  type : Frame
  payload : Frame
deriving DecidableEq

/-- What one round of a listener comes to: nothing, a message that is now up to `from_bson`, or the end. -/
inductive Round where
  | skip
  | read (d : Delivery)
  | fail
deriving DecidableEq

namespace Cpp

/-- `buildForType` has a class for each of these, and returns `NULL` for any other number. -/
def knownTypes : List Int :=
  [PORT_REGISTER, PORT_CONFIG, DATAPATH_PORT_REGISTER, DATAPATH_DOWN, VIRTUAL_PLANE_MAP,
    DATA_PLANE_MAP, ROUTE_MOD]

/-- The type is a `char`. Without a class for it the next call goes through the null pointer. -/
def build (channel addr type payload : Frame) : Round :=
  match type with
  | [t] => if t.toInt ∈ knownTypes then .read ⟨channel, addr, [t], payload⟩ else .fail
  | _ => .skip

/-- A round of a listener. Frames after the fourth are dropped. -/
def fromPublisher : Frames → Round × Frames
  | (channel, true) :: (addr, true) :: (type, true) :: (payload, more) :: incoming =>
    (build channel addr type payload, if more then skipRest incoming else incoming)
  | (_, false) :: incoming => (.skip, incoming)
  | (_, true) :: (_, false) :: incoming => (.skip, incoming)
  | (_, true) :: (_, true) :: (_, false) :: incoming => (.skip, incoming)
  | _ => (.skip, [])

end Cpp

/-! ## Message by message -/

namespace Python

def fromExternal : Parts → Option Parts
  | addr :: channel :: parts => some (channel :: addr :: parts)
  | _ => none

def fromMailbox (parts : Parts) : Option Parts := some parts

/-- `struct.unpack` takes one byte, and for a type without a class `build_for_type` returns `None`. -/
def fromPublisher : Parts → Round
  | [channel, addr, type, payload] =>
    match type with
    | [t] => if (Py.Message.buildForType t.toNat).isSome then .read ⟨channel, addr, [t], payload⟩ else .fail
    | _ => .fail
  | _ => .skip

end Python

section Loops

variable {β : Type} (once : Frames → β × Frames) (whole : Parts → β) (ends : β → Bool)

/-- A loop over frames that starts over `n` times, unless a round ends it. -/
def repeated : Nat → Frames → List β × Frames
  | 0, incoming => ([], incoming)
  | n + 1, incoming =>
    let (out, incoming) := once incoming
    if ends out then ([out], incoming)
    else
      let (outs, incoming) := repeated n incoming
      (out :: outs, incoming)

/-- The same loop over messages. -/
def rounds : List Parts → List β × List Parts
  | [] => ([], [])
  | parts :: messages =>
    if ends (whole parts) then ([whole parts], messages)
    else (whole parts :: (rounds messages).1, (rounds messages).2)

variable {once whole ends}

theorem repeated_frames
    (h : ∀ parts incoming, parts ≠ [] → once (frames parts ++ incoming) = (whole parts, incoming))
    (messages : List Parts) (hne : ∀ parts ∈ messages, parts ≠ []) (incoming : Frames) :
    repeated once ends messages.length (messages.flatMap frames ++ incoming) =
      ((rounds whole ends messages).1, (rounds whole ends messages).2.flatMap frames ++ incoming) := by
  induction messages with
  | nil => rfl
  | cons parts messages ih =>
    have hparts := h parts (messages.flatMap frames ++ incoming) (hne parts (by simp))
    have hrest := ih fun p hp => hne p (by simp [hp])
    rw [List.flatMap_cons, List.append_assoc, List.length_cons, repeated, rounds, hparts]
    by_cases hend : ends (whole parts)
    · simp only [hend, if_true]
    · simp only [hend, Bool.false_eq_true, if_false, hrest]

theorem rounds_forever (messages : List Parts) :
    rounds whole (fun _ => false) messages = (messages.map whole, []) := by
  induction messages with
  | nil => rfl
  | cons parts messages ih => simp [rounds, ih]

end Loops

theorem forwardRest_frames : ∀ (parts : Parts) (incoming : Frames), parts ≠ [] →
    Cpp.forwardRest (frames parts ++ incoming) = (frames parts, incoming)
  | [f], incoming, _ => rfl
  | f :: g :: parts, incoming, _ => by
    have ih := forwardRest_frames (g :: parts) incoming (by simp)
    simp [frames, Cpp.forwardRest, ih]

theorem skipRest_frames : ∀ (parts : Parts) (incoming : Frames), parts ≠ [] →
    Cpp.skipRest (frames parts ++ incoming) = incoming
  | [f], incoming, _ => rfl
  | f :: g :: parts, incoming, _ => by
    have ih := skipRest_frames (g :: parts) incoming (by simp)
    simp [frames, Cpp.skipRest, ih]

theorem fromExternal_frames : ∀ (parts : Parts) (incoming : Frames), parts ≠ [] →
    Cpp.fromExternal (frames parts ++ incoming) =
      (((Python.fromExternal parts).map frames).getD [], incoming)
  | [f], incoming, _ => rfl
  | [f, g], incoming, _ => rfl
  | f :: g :: h :: parts, incoming, _ => by
    have hrest := forwardRest_frames (h :: parts) incoming (by simp)
    simp [frames, Cpp.fromExternal, Python.fromExternal, hrest]

theorem fromMailbox_frames : ∀ (parts : Parts) (incoming : Frames), parts ≠ [] →
    Cpp.fromMailbox (frames parts ++ incoming) = (if parts.length = 4 then some parts else none, incoming)
  | [_], _, _ => rfl
  | [_, _], _, _ => rfl
  | [_, _, _], _, _ => rfl
  | [_, _, _, _], _, _ => rfl
  | _ :: _ :: _ :: _ :: h :: parts, incoming, _ => by
    have hrest := skipRest_frames (h :: parts) incoming (by simp)
    simp [frames, Cpp.fromMailbox, hrest]

/-- The first four frames, if there are so many. -/
def Cpp.received : Parts → Round
  | channel :: addr :: type :: payload :: _ => Cpp.build channel addr type payload
  | _ => .skip

theorem fromPublisher_frames : ∀ (parts : Parts) (incoming : Frames), parts ≠ [] →
    Cpp.fromPublisher (frames parts ++ incoming) = (Cpp.received parts, incoming)
  | [_], _, _ => rfl
  | [_, _], _, _ => rfl
  | [_, _, _], _, _ => rfl
  | [_, _, _, _], _, _ => rfl
  | _ :: _ :: _ :: _ :: h :: parts, incoming, _ => by
    have hrest := skipRest_frames (h :: parts) incoming (by simp)
    simp [frames, Cpp.fromPublisher, Cpp.received, hrest]

theorem buildForType_isSome : ∀ n, (Py.Message.buildForType n).isSome ↔ n < 7
  | 0 | 1 | 2 | 3 | 4 | 5 | 6 => by simp [Py.Message.buildForType]
  | n + 7 => by simp [Py.Message.buildForType]

/-- Both languages have classes for the same types. From 128 on the `char` is negative. -/
theorem known_iff (t : Byte) : (Py.Message.buildForType t.toNat).isSome ↔ t.toInt ∈ Cpp.knownTypes := by
  have hlt := t.isLt
  have hcpp : t.toInt ∈ Cpp.knownTypes ↔ 0 ≤ t.toInt ∧ t.toInt < 7 := by
    simp only [Cpp.knownTypes, PORT_REGISTER, PORT_CONFIG, DATAPATH_PORT_REGISTER, DATAPATH_DOWN,
      VIRTUAL_PLANE_MAP, DATA_PLANE_MAP, ROUTE_MOD, List.mem_cons, List.not_mem_nil, or_false]
    omega
  rw [buildForType_isSome, hcpp, BitVec.toInt_eq_toNat_cond]
  split <;> omega

theorem python_four (channel addr payload : Frame) (t : Byte) :
    Python.fromPublisher [channel, addr, [t], payload] = Cpp.received [channel, addr, [t], payload] := by
  simp only [Python.fromPublisher, Cpp.received, Cpp.build, known_iff]

theorem python_fromPublisher (parts : Parts) : Python.fromPublisher parts = Cpp.received parts ↔
    (4 ≤ parts.length → (parts.length = 4 ↔ (parts.getD 2 []).length = 1)) := by
  match parts with
  | [] | [_] | [_, _] | [_, _, _] => simp [Python.fromPublisher, Cpp.received]
  | [_, _, [], _] => simp [Python.fromPublisher, Cpp.received, Cpp.build]
  | [channel, addr, [t], payload] => simp [python_four channel addr payload t]
  | [_, _, _ :: _ :: _, _] => simp [Python.fromPublisher, Cpp.received, Cpp.build]
  | _ :: _ :: [] :: _ :: _ :: _ => simp [Python.fromPublisher, Cpp.received, Cpp.build]
  | _ :: _ :: [t] :: _ :: _ :: _ =>
    simp only [Python.fromPublisher, Cpp.received, Cpp.build]
    split <;> simp
  | _ :: _ :: (_ :: _ :: _) :: _ :: _ :: _ => simp [Python.fromPublisher, Cpp.received, Cpp.build]

/-- The loops of C++ take a stream of frames apart where Python takes the messages. They pass on the
same, but for messages that do not have four frames, and those with a type that is not a byte. A
listener goes on until a type has no class. -/
theorem loops_agree (messages : List Parts) (hne : ∀ parts ∈ messages, parts ≠ []) (incoming : Frames) :
    repeated Cpp.fromExternal (fun _ => false) messages.length (messages.flatMap frames ++ incoming) =
        (messages.map fun parts => ((Python.fromExternal parts).map frames).getD [], incoming) ∧
      repeated Cpp.fromMailbox (fun _ => false) messages.length (messages.flatMap frames ++ incoming) =
        (messages.map fun parts => if parts.length = 4 then Python.fromMailbox parts else none, incoming) ∧
      repeated Cpp.fromPublisher (· == .fail) messages.length (messages.flatMap frames ++ incoming) =
        ((rounds Cpp.received (· == .fail) messages).1,
          (rounds Cpp.received (· == .fail) messages).2.flatMap frames ++ incoming) ∧
      ∀ parts ∈ messages, Python.fromPublisher parts = Cpp.received parts ↔
        (4 ≤ parts.length → (parts.length = 4 ↔ (parts.getD 2 []).length = 1)) := by
  refine ⟨?_, ?_, repeated_frames fromPublisher_frames messages hne incoming,
    fun parts _ => python_fromPublisher parts⟩
  · rw [repeated_frames fromExternal_frames messages hne incoming, rounds_forever]
    rfl
  · rw [repeated_frames fromMailbox_frames messages hne incoming, rounds_forever]
    rfl

theorem loops_agree_three :
    repeated Cpp.fromPublisher (· == .fail) 3
        ([[[1], [2], [3], [4]], [[1], [2], [7], [4]], [[1], [2], [3], [5]]].flatMap frames ++ []) =
        ([.read ⟨[1], [2], [3], [4]⟩, .fail], frames [[1], [2], [3], [5]]) ∧
      Python.fromPublisher [[1], [2], [7], [4]] = .fail := by
  have h := loops_agree [[[1], [2], [3], [4]], [[1], [2], [7], [4]], [[1], [2], [3], [5]]] (by simp) []
  exact ⟨h.2.2.1, ((h.2.2.2 _ (by simp)).mpr (by simp)).trans rfl⟩

/-! ## Processes -/

inductive Language where
  | cpp | python
  -- Python with green threads, where the two directions are two threads.
  | eventlet
deriving DecidableEq

structure Config where
  language : Language
  bind : Bool

/-- What an attempt to send out of the external socket comes to. -/
inductive Outcome where
  | ok | unreachable | failed
deriving DecidableEq

inductive Fate where
  | sent | gaveUp
  -- The exception ends the thread.
  | raised
deriving DecidableEq

/-- `outcome attempt` with `attempt` counting down to one. -/
def attempts (language : Language) (outcome : Nat → Outcome) : Nat → Fate
  | 0 => .gaveUp
  | attempt + 1 =>
    match outcome (attempt + 1) with
    | .ok => .sent
    | .unreachable => attempts language outcome attempt
    | .failed => if language = .cpp then .gaveUp else .raised

/-- A server tries once, a client thirty times. -/
def Config.tries (c : Config) : Nat := if c.bind then 1 else 30

/-- The peer becomes reachable in time, and nothing else goes wrong before. -/
def Config.Reaches (c : Config) (outcome : Nat → Outcome) : Prop :=
  ∃ k, 0 < k ∧ k ≤ c.tries ∧ outcome k = .ok ∧ ∀ j, k < j → j ≤ c.tries → outcome j = .unreachable

theorem attempts_sent_iff (language : Language) (outcome : Nat → Outcome) (n : Nat) :
    attempts language outcome n = .sent ↔
      ∃ k, 0 < k ∧ k ≤ n ∧ outcome k = .ok ∧ ∀ j, k < j → j ≤ n → outcome j = .unreachable := by
  induction n with
  | zero =>
    simp only [attempts, reduceCtorEq, false_iff, not_exists]
    rintro k ⟨hpos, hle, _⟩
    omega
  | succ n ih =>
    cases h : outcome (n + 1) with
    | ok =>
      simp only [attempts, h, true_iff]
      exact ⟨n + 1, by omega, le_rfl, h, fun j hj hj' => by omega⟩
    | unreachable =>
      simp only [attempts, h, ih]
      constructor
      · rintro ⟨k, hpos, hle, hok, hbefore⟩
        refine ⟨k, hpos, by omega, hok, fun j hj hj' => ?_⟩
        rcases Nat.lt_or_ge n j with hn | hn
        · rwa [show j = n + 1 by omega]
        · exact hbefore j hj hn
      · rintro ⟨k, hpos, hle, hok, hbefore⟩
        have hk : k ≠ n + 1 := by
          rintro rfl
          simp [h] at hok
        exact ⟨k, hpos, by omega, hok, fun j hj hj' => hbefore j hj (by omega)⟩
    | failed =>
      have hne : attempts language outcome (n + 1) ≠ .sent := by
        simp only [attempts, h]
        split <;> simp
      simp only [hne, false_iff, not_exists]
      rintro k ⟨hpos, hle, hok, hbefore⟩
      rcases Nat.lt_or_ge k (n + 1) with hk | hk
      · simp [hbefore (n + 1) hk le_rfl] at h
      · simp [show k = n + 1 by omega, h] at hok

/-- A thread that listens on a channel, with what it processed so far. -/
structure Listener where
  channel : Frame
  queue : List Parts := []
  processed : List Delivery := []
  ended : Bool := false

/-- What becomes of a message that has a class: reading it raises (`from_bson`, or `str` for the log), or the
processor raises, or neither. -/
inductive Handling where
  | done | unreadable | raised
deriving DecidableEq

/-- Processes are named by the identity of their socket. -/
structure Network where
  mailbox : Frame → List Parts := fun _ => []
  -- From one process to another, with the address that the receiver sees.
  link : Frame → Frame → List Parts := fun _ _ => []
  external : Frame → List Parts := fun _ => []
  listeners : Frame → List Listener := fun _ => []
  raised : Frame → Bool := fun _ => false

inductive Event where
  | send (a channel destination : Frame) (type : Byte) (payload : Frame)
  | forward (a : Frame) (outcome : Nat → Outcome)
  | arrive (a b : Frame)
  | lose (a b : Frame)
  -- `full` are the listeners that have no room.
  | publish (b : Frame) (full : Nat → Bool)
  | listen (b channel : Frame)
  | receive (b : Frame) (k : Nat) (h : Handling)

namespace Listener

variable (language : Language) (h : Handling) (l : Listener)

/-- A round of a listener in its language. -/
def received (parts : Parts) : Round :=
  if language = .cpp then Cpp.received parts else Python.fromPublisher parts

/-- The thread ends, and its socket closes with what waits there. -/
def close : Listener := { l with queue := [], ended := true }

/-- One round. In `processed` is what the processor was called with. -/
def take : Listener :=
  match l.queue with
  | [] => l
  | parts :: queue =>
    if l.ended then l
    else
      match received language parts, h with
      | .skip, _ => { l with queue := queue }
      | .fail, _ => l.close
      | .read d, .done => { l with queue := queue, processed := l.processed ++ [d] }
      | .read _, .unreadable => l.close
      | .read d, .raised => { l.close with processed := l.processed ++ [d] }

/-- The round ends the listener. -/
def Fails : Prop := l.ended = false ∧ (l.take language h).ended = true

instance : Decidable (l.Fails language h) := inferInstanceAs (Decidable (_ ∧ _))

/-- The publisher matches subscriptions by prefix. -/
def offer (parts : Parts) (full : Bool) : Listener :=
  if l.channel.isPrefixOf (parts.headD []) ∧ full = false ∧ l.ended = false then
    { l with queue := l.queue ++ [parts] }
  else l

end Listener

namespace Network

variable (cfg : Frame → Config) (s : Network)

/-- The mailbox worker sends the next message, or fails to. -/
def forward (a : Frame) (outcome : Nat → Outcome) : Network :=
  match s.mailbox a with
  | [] => s
  | parts :: rest =>
    if s.raised a then s
    else
      let popped := { s with mailbox := Function.update s.mailbox a rest }
      if (cfg a).language = .cpp ∧ parts.length ≠ 4 then popped
      else
        match attempts (cfg a).language outcome (cfg a).tries with
        | .sent =>
          let destination := parts.headD []
          let sent := Function.update (s.link a) destination (s.link a destination ++ [a :: parts.tail])
          { popped with link := Function.update s.link a sent }
        | .gaveUp => popped
        | .raised => { popped with raised := Function.update s.raised a true }

def dropLink (a b : Frame) : Network :=
  { s with link := Function.update s.link a (Function.update (s.link a) b (s.link a b).tail) }

/-- The external worker publishes the next message to the listeners. -/
def publish (b : Frame) (full : Nat → Bool) : Network :=
  match s.external b with
  | [] => s
  | parts :: rest =>
    -- The one thread of the main worker is gone after an exception.
    if s.raised b ∧ (cfg b).language ≠ .eventlet then s
    else
      let popped := { s with external := Function.update s.external b rest }
      match Python.fromExternal parts with
      | none => popped
      | some parts =>
        let offered := (s.listeners b).mapIdx fun k l => l.offer parts (full k)
        { popped with listeners := Function.update s.listeners b offered }

/-- A C++ process goes down with all its threads. -/
def crash (b : Frame) : Network :=
  { s with
    raised := Function.update s.raised b true
    listeners := Function.update s.listeners b ((s.listeners b).map Listener.close) }

/-- A listener takes the next message. Where it fails in C++, all threads go. -/
def receive (b : Frame) (k : Nat) (h : Handling) : Network :=
  match (s.listeners b)[k]? with
  | none => s
  | some l =>
    let taken := (s.listeners b).set k (l.take (cfg b).language h)
    let after := { s with listeners := Function.update s.listeners b taken }
    if (cfg b).language = .cpp ∧ l.Fails (cfg b).language h then after.crash b else after

def step : Event → Network
  | .send a channel destination type payload =>
    { s with
      mailbox := Function.update s.mailbox a (s.mailbox a ++ [[destination, channel, [type], payload]]) }
  | .forward a outcome => s.forward cfg a outcome
  | .arrive a b =>
    match s.link a b with
    | [] => s
    | parts :: _ => { s.dropLink a b with external := Function.update s.external b (s.external b ++ [parts]) }
  | .lose a b => s.dropLink a b
  | .publish b full => s.publish cfg b full
  | .listen b channel =>
    { s with listeners := Function.update s.listeners b (s.listeners b ++ [⟨channel, [], [], false⟩]) }
  | .receive b k h => s.receive cfg b k h

def run (es : List Event) : Network := Run.run (step cfg) {} es

end Network

/-! ## One conversation

What process `a` sends to process `b` on one channel, as one listener of `b` gets it. -/

open Conveyor

def item (x y : Frame) : Parts → Option (Frame × Frame)
  | [f, g, type, payload] => if f = x ∧ g = y then some (type, payload) else none
  | _ => none

def Delivery.item (d : Delivery) (a ch : Frame) : Option (Frame × Frame) :=
  if d.channel = ch ∧ d.sender = a then some (d.type, d.payload) else none

namespace Network

section View

variable (a b ch : Frame) (k : Nat)

/-- What the listener processed of the conversation. -/
def processed (s : Network) : List (Frame × Frame) :=
  (((s.listeners b)[k]?.map (·.processed)).getD []).filterMap (·.item a ch)

/-- What waits for the listener of the conversation. -/
def queued (s : Network) : List (Frame × Frame) :=
  (((s.listeners b)[k]?.map (·.queue)).getD []).filterMap (item ch a)

/-- The conversation on its way from `a` to the listener. -/
def view (s : Network) : Belt (Frame × Frame) :=
  [s.processed a b ch k, s.queued a b ch k, (s.external b).filterMap (item a ch),
    (s.link a b).filterMap (item a ch), (s.mailbox a).filterMap (item b ch)]

/-- What is sent in the conversation. -/
def enters : Event → List (Frame × Frame)
  | .send a' channel destination type payload =>
    if a' = a then (item b ch [destination, channel, [type], payload]).toList else []
  | _ => []

end View

end Network

/-- What `send` makes. -/
def Proper (parts : Parts) : Prop := ∃ x y t z, parts = [x, y, [t], z]

def AllProper (queue : List Parts) : Prop := ∀ parts ∈ queue, Proper parts

def AllFrom (a : Frame) (queue : List Parts) : Prop := ∀ parts ∈ queue, Proper parts ∧ parts.headD [] = a

structure Listener.Sound (l : Listener) : Prop where
  queue : AllProper l.queue
  subscribed : ∀ parts ∈ l.queue, l.channel.isPrefixOf (parts.headD [])
  processed : ∀ d ∈ l.processed, l.channel.isPrefixOf d.channel

theorem AllProper.snoc {queue : List Parts} {parts : Parts} (h : AllProper queue) (hp : Proper parts) :
    AllProper (queue ++ [parts]) := by
  simpa [AllProper, or_imp, forall_and, hp] using h

theorem AllProper.rest {queue rest : List Parts} {parts : Parts} (h : AllProper queue)
    (hq : queue = parts :: rest) :
    Proper parts ∧ AllProper rest :=
  ⟨h parts (by simp [hq]), fun p hp => h p (by simp [hq, hp])⟩

theorem forall_update {β : Type} {f : Frame → β} {P : Frame → β → Prop} (h : ∀ a, P a (f a))
    {a : Frame} {v : β} (hv : P a v) : ∀ x, P x (Function.update f a v x) :=
  (Function.forall_update_iff f P).mpr ⟨hv, fun x _ => h x⟩

namespace Listener

theorem received_proper (language : Language) (x y z : Frame) (t : Byte) :
    received language [x, y, [t], z] = .read ⟨x, y, [t], z⟩ ∨ received language [x, y, [t], z] = .fail := by
  have hcpp : received language [x, y, [t], z] = Cpp.received [x, y, [t], z] := by
    unfold received
    split
    · rfl
    · exact python_four x y z t
  rw [hcpp, Cpp.received, Cpp.build]
  split
  · exact Or.inl rfl
  · exact Or.inr rfl

variable {language : Language} {h : Handling} {l : Listener} {x y z : Frame} {t : Byte} {queue : List Parts}

theorem take_nil (hq : l.queue = []) : l.take language h = l := by
  unfold take
  rw [hq]

theorem take_ended (he : l.ended = true) : l.take language h = l := by
  unfold take
  split
  · rfl
  · exact if_pos he

theorem take_cons (language : Language) (h : Handling) (hq : l.queue = [x, y, [t], z] :: queue)
    (he : l.ended = false) :
    l.take language h = { l with queue := queue, processed := l.processed ++ [⟨x, y, [t], z⟩] } ∨
      (l.Fails language h ∧ (l.take language h = l.close ∨
        l.take language h = { l.close with processed := l.processed ++ [⟨x, y, [t], z⟩] })) := by
  have htake : l.take language h = match received language [x, y, [t], z], h with
      | .skip, _ => { l with queue := queue }
      | .fail, _ => l.close
      | .read d, .done => { l with queue := queue, processed := l.processed ++ [d] }
      | .read _, .unreadable => l.close
      | .read d, .raised => { l.close with processed := l.processed ++ [d] } := by
    rw [take, hq]
    exact if_neg (by rw [he]; decide)
  rw [Fails, htake]
  rcases received_proper language x y z t with hr | hr
  · rw [hr]
    cases h with
    | done => exact Or.inl rfl
    | unreadable => exact Or.inr ⟨⟨he, rfl⟩, Or.inl rfl⟩
    | raised => exact Or.inr ⟨⟨he, rfl⟩, Or.inr rfl⟩
  · rw [hr]
    exact Or.inr ⟨⟨he, rfl⟩, Or.inl rfl⟩

theorem Sound.close (hl : l.Sound) :
    l.close.Sound := ⟨by simp [Listener.close, AllProper], by simp [Listener.close],
  hl.processed⟩

theorem Sound.take (hl : l.Sound) : (l.take language h).Sound := by
  cases hq : l.queue with
  | nil => rwa [take_nil hq]
  | cons parts queue =>
    obtain ⟨⟨x, y, t, z, rfl⟩, hrest⟩ := hl.queue.rest hq
    cases he : l.ended with
    | true => rwa [take_ended he]
    | false =>
      have hprocessed : ∀ d ∈ l.processed ++ [⟨x, y, [t], z⟩], l.channel.isPrefixOf d.channel := by
        intro d hd
        rcases List.mem_append.mp hd with hd | hd
        · exact hl.processed d hd
        · rw [List.mem_singleton.mp hd]
          exact hl.subscribed [x, y, [t], z] (by simp [hq])
      rcases take_cons language h hq he with htake | ⟨-, htake | htake⟩
      · rw [htake]
        exact ⟨hrest, fun p hp => hl.subscribed p (by simp [hq, hp]), hprocessed⟩
      · rw [htake]
        exact hl.close
      · rw [htake]
        exact { hl.close with processed := hprocessed }

theorem Sound.offer (hl : l.Sound) {parts : Parts} (hp : Proper parts) (full : Bool) :
    (l.offer parts full).Sound := by
  unfold Listener.offer
  split
  · next h =>
    refine ⟨hl.queue.snoc hp, fun p hp => ?_, hl.processed⟩
    rcases List.mem_append.mp hp with hp | hp
    · exact hl.subscribed p hp
    · rw [List.mem_singleton.mp hp]
      exact h.1
  · exact hl

end Listener

namespace Network

/-- All messages are as `send` made them, and carry the name of the process they came from. -/
structure Sound (s : Network) : Prop where
  mailbox : ∀ a, AllProper (s.mailbox a)
  link : ∀ a b, AllFrom a (s.link a b)
  external : ∀ b, AllProper (s.external b)
  listeners : ∀ b, ∀ l ∈ s.listeners b, l.Sound

variable {cfg : Frame → Config} {s : Network}

theorem Sound.setLink (hs : Sound s) {a b : Frame} {queue : List Parts} (h : AllFrom a queue) :
    Sound { s with link := Function.update s.link a (Function.update (s.link a) b queue) } := by
  refine { hs with link := ?_ }
  refine forall_update (P := fun a (l : Frame → List Parts) => ∀ b, AllFrom a (l b)) hs.link ?_
  exact forall_update (P := fun _ queue => AllFrom a queue) (hs.link a) h

theorem Sound.setListeners (hs : Sound s) {b : Frame} {ls : List Listener} (h : ∀ l ∈ ls, l.Sound) :
    Sound { s with listeners := Function.update s.listeners b ls } :=
  { hs with listeners := forall_update (P := fun _ (ls : List Listener) => ∀ l ∈ ls, l.Sound) hs.listeners h }

theorem Sound.setMailbox (hs : Sound s) {a : Frame} {queue : List Parts} (h : AllProper queue) :
    Sound { s with mailbox := Function.update s.mailbox a queue } :=
  { hs with mailbox := forall_update (P := fun _ queue => AllProper queue) hs.mailbox h }

theorem Sound.setExternal (hs : Sound s) {b : Frame} {queue : List Parts} (h : AllProper queue) :
    Sound { s with external := Function.update s.external b queue } :=
  { hs with external := forall_update (P := fun _ queue => AllProper queue) hs.external h }

theorem Sound.forward (hs : Sound s) (a : Frame) (outcome : Nat → Outcome) :
    Sound (s.forward cfg a outcome) := by
  unfold Network.forward
  split
  · exact hs
  · next parts rest h =>
    obtain ⟨⟨x, y, t, z, rfl⟩, hrest⟩ := (hs.mailbox a).rest h
    have hpop := hs.setMailbox (a := a) hrest
    split_ifs
    · exact hs
    · exact hpop
    · split
      · refine hpop.setLink fun p hp => ?_
        rcases List.mem_append.mp hp with hp | hp
        · exact hs.link a _ p hp
        · rw [List.mem_singleton.mp hp]
          exact ⟨⟨a, y, t, z, rfl⟩, rfl⟩
      · exact hpop
      · exact { hpop with }

theorem Sound.dropLink (hs : Sound s) (a b : Frame) : Sound (s.dropLink a b) :=
  hs.setLink fun p hp => hs.link a b p (List.mem_of_mem_tail hp)

theorem Sound.publish (hs : Sound s) (b : Frame) (full : Nat → Bool) : Sound (s.publish cfg b full) := by
  unfold Network.publish
  split
  · exact hs
  · next parts rest h =>
    obtain ⟨⟨x, y, t, z, rfl⟩, hrest⟩ := (hs.external b).rest h
    split_ifs
    · exact hs
    · refine (hs.setExternal hrest).setListeners fun l hl => ?_
      obtain ⟨i, hi, rfl⟩ := List.mem_mapIdx.mp hl
      exact (hs.listeners b _ (List.getElem_mem hi)).offer ⟨y, x, t, z, rfl⟩ (full i)

theorem Sound.crash (hs : Sound s) (b : Frame) : Sound (s.crash b) := by
  have hclosed : Sound { s with
      listeners := Function.update s.listeners b ((s.listeners b).map Listener.close) } :=
    hs.setListeners fun l hl => by
      obtain ⟨l', hl', rfl⟩ := List.mem_map.mp hl
      exact (hs.listeners b l' hl').close
  exact { hclosed with }

theorem Sound.receive (hs : Sound s) (b : Frame) (k : Nat) (h : Handling) : Sound (s.receive cfg b k h) := by
  unfold Network.receive
  split
  · exact hs
  · next l hl =>
    have htaken : Sound
        { s with
          listeners :=
            Function.update s.listeners b ((s.listeners b).set k (l.take (cfg b).language h)) } := by
      refine hs.setListeners fun l' hl' => ?_
      rcases List.mem_or_eq_of_mem_set hl' with hl' | rfl
      · exact hs.listeners b l' hl'
      · exact (hs.listeners b l (List.mem_of_getElem? hl)).take
    dsimp only
    split
    · exact htaken.crash b
    · exact htaken

theorem Sound.step (hs : Sound s) (e : Event) : Sound (s.step cfg e) := by
  cases e with
  | send a channel destination type payload =>
    exact hs.setMailbox ((hs.mailbox a).snoc ⟨destination, channel, type, payload, rfl⟩)
  | forward a outcome => exact hs.forward a outcome
  | arrive a b =>
    simp only [Network.step]
    split
    · exact hs
    · next parts rest h =>
      have hparts := (hs.link a b parts (by simp [h])).1
      exact (hs.dropLink a b).setExternal ((hs.external b).snoc hparts)
  | lose a b => exact hs.dropLink a b
  | publish b full => exact hs.publish b full
  | listen b channel =>
    refine hs.setListeners fun l hl => ?_
    rcases List.mem_append.mp hl with hl | hl
    · exact hs.listeners b l hl
    · rw [List.mem_singleton.mp hl]
      exact ⟨by simp [AllProper], by simp, by simp⟩
  | receive b k h => exact hs.receive b k h

/-- What a step of this kind does to the conversation: it loses a message, or the listener ends and
loses the rest. -/
def Loses (cfg : Frame → Config) (a b ch : Frame) (k : Nat) (s : Network) : Event → Prop
  | .forward a' outcome => a' = a ∧ ¬(cfg a).Reaches outcome
  | .lose a' b' => a' = a ∧ b' = b
  | .publish b' full =>
    b' = b ∧ ∀ l, (s.listeners b)[k]? = some l →
    ¬(l.channel.isPrefixOf ch ∧ full k = false ∧ l.ended = false)
  | .receive b' k' h =>
    b' = b ∧ (k' = k ∨ (cfg b).language = .cpp) ∧
      ∃ l, (s.listeners b)[k']? = some l ∧ l.Fails (cfg b).language h
  | _ => False

section Moves

variable {a b ch : Frame} {k : Nat}

theorem dropLink_move (a' b' : Frame) :
    Move (Loses cfg a b ch k s (.lose a' b')) (s.view a b ch k) ((s.dropLink a' b').view a b ch k) [] := by
  by_cases hab : a' = a ∧ b' = b
  · obtain ⟨rfl, rfl⟩ := hab
    cases h : s.link a' b' with
    | nil =>
      refine .same ?_
      simp [view, processed, queued, Network.dropLink, h]
    | cons parts rest =>
      simp only [view, processed, queued, Network.dropLink, Function.update_self, h, List.tail_cons,
        filterMap_cons]
      exact .behind (.behind (.lose fun _ => ⟨rfl, rfl⟩))
  · refine .same ?_
    have hlink : (s.dropLink a' b').link a b = s.link a b := by
      simp only [Network.dropLink, Function.update_apply]
      grind
    simp only [view, processed, queued, hlink]
    rfl

variable (hs : Sound s)
include hs

theorem forward_move (a' : Frame) (outcome : Nat → Outcome) :
    Move (Loses cfg a b ch k s (.forward a' outcome)) (s.view a b ch k)
      ((s.forward cfg a' outcome).view a b ch k) [] := by
  unfold Network.forward
  split
  · exact .stay
  · next parts rest h =>
    obtain ⟨⟨x, y, t, z, rfl⟩, _⟩ := (hs.mailbox a').rest h
    split_ifs with hraised hlong
    · exact .stay
    · simp at hlong
    · by_cases ha : a' = a
      · subst ha
        have hview : (s.mailbox a').filterMap (item b ch) =
            (item b ch [x, y, [t], z]).toList ++ rest.filterMap (item b ch) := by
          rw [h, filterMap_cons]
        split
        · -- The message goes to `b` or to somebody else.
          by_cases hx : x = b
          · subst hx
            have hitem : item x ch [x, y, [t], z] = item a' ch [a', y, [t], z] := by simp [item]
            simp only [view, processed, queued, Function.update_self, List.headD_cons, List.tail_cons, hview,
              filterMap_snoc, hitem]
            exact .behind (.behind (.behind .advance))
          · have hitem : item b ch [x, y, [t], z] = none := by simp [item, hx]
            refine .same ?_
            simp only [view, processed, queued, Function.update_self, List.headD_cons,
              Function.update_of_ne (Ne.symm hx), hview, hitem, Option.toList_none, List.nil_append]
        all_goals
          next hfate =>
            simp only [view, processed, queued, Function.update_self, hview]
            refine .behind (.behind (.behind (.lose fun _ => ⟨rfl, fun hreach => ?_⟩)))
            rw [Config.Reaches, ← attempts_sent_iff (cfg a').language, hfate] at hreach
            cases hreach
      · have hne : a ≠ a' := Ne.symm ha
        refine .same ?_
        split <;> simp [view, processed, queued, hne]

theorem arrive_move {L : Prop} (a' b' : Frame) :
    Move L (s.view a b ch k) ((s.step cfg (.arrive a' b')).view a b ch k) [] := by
  simp only [Network.step]
  split
  · exact .stay
  · next parts rest h =>
    by_cases hb : b' = b
    · subst hb
      by_cases ha : a' = a
      · subst ha
        simp only [view, processed, queued, Network.dropLink, Function.update_self, h, List.tail_cons,
          filterMap_cons, filterMap_snoc]
        exact .behind (.behind .advance)
      · -- It is not from `a`.
        obtain ⟨⟨x, y, t, z, rfl⟩, hx⟩ := hs.link a' b' parts (by simp [h])
        simp only [List.headD_cons] at hx
        subst hx
        refine .same ?_
        simp only [view, processed, queued, Network.dropLink, Function.update_self, filterMap_snoc,
          Function.update_of_ne (Ne.symm ha)]
        simp [item, ha]
    · refine .same ?_
      have hlink : (s.dropLink a' b').link a b = s.link a b := by
        simp only [Network.dropLink, Function.update_apply]
        grind
      simp only [view, processed, queued, hlink, Function.update_of_ne (Ne.symm hb)]
      rfl

theorem publish_move (b' : Frame) (full : Nat → Bool) :
    Move (Loses cfg a b ch k s (.publish b' full)) (s.view a b ch k)
      ((s.publish cfg b' full).view a b ch k) [] := by
  unfold Network.publish
  split
  · exact .stay
  · next parts rest h =>
    obtain ⟨⟨x, y, t, z, rfl⟩, _⟩ := (hs.external b').rest h
    split_ifs
    · exact .stay
    · by_cases hb : b' = b
      · subst hb
        have hitem : item a ch [x, y, [t], z] = item ch a [y, x, [t], z] := by simp [item, and_comm]
        have hext : (s.external b').filterMap (item a ch) =
            (item ch a [y, x, [t], z]).toList ++ rest.filterMap (item a ch) := by
          rw [h, filterMap_cons, hitem]
        cases hl : (s.listeners b')[k]? with
        | none =>
          simp only [view, processed, queued, Python.fromExternal, Function.update_self,
            List.getElem?_mapIdx, hl, hext, Option.map_none, Option.getD_none]
          exact .behind (.lose fun _ => ⟨rfl, fun l h => by simp [hl] at h⟩)
        | some l =>
          simp only [view, processed, queued, Python.fromExternal, Function.update_self,
            List.getElem?_mapIdx, hl, hext, Option.map_some, Option.getD_some]
          by_cases hsub : l.channel.isPrefixOf y ∧ full k = false ∧ l.ended = false
          · have hoffer : l.offer [y, x, [t], z] (full k) = { l with queue := l.queue ++ [[y, x, [t], z]] } :=
              if_pos hsub
            simp only [hoffer, filterMap_snoc]
            exact .behind .advance
          · have hoffer : l.offer [y, x, [t], z] (full k) = l := if_neg hsub
            rw [hoffer]
            refine .behind (.lose fun hsome => ⟨rfl, fun l' hl' => ?_⟩)
            have hy : y = ch := by
              by_contra hy
              simp [item, hy] at hsome
            rw [hl, Option.some.injEq] at hl'
            rwa [← hl', ← hy]
      · refine .same ?_
        simp only [view, processed, queued, Python.fromExternal, Function.update_of_ne (Ne.symm hb)]

omit hs in
theorem crash_move {L : Prop} (b' : Frame) (hL : b' = b → L) :
    Move L (s.view a b ch k) ((s.crash b').view a b ch k) [] := by
  by_cases hb : b' = b
  · subst hb
    have hprocessed : (s.crash b').processed a b' ch k = s.processed a b' ch k := by
      simp only [processed, Network.crash, Function.update_self, List.getElem?_map, Option.map_map]
      rfl
    have hqueued : (s.crash b').queued a b' ch k = [] := by
      cases hl : (s.listeners b')[k]? <;> simp [queued, Network.crash, hl, Listener.close]
    rw [view, view, hprocessed, hqueued, ← List.append_nil (s.queued a b' ch k)]
    exact .lose fun _ => hL rfl
  · refine .same ?_
    simp [view, processed, queued, Network.crash, Function.update_of_ne (Ne.symm hb)]

theorem take_move {L : Prop} {b' : Frame} {k' : Nat} {h : Handling} {l : Listener}
    (hl : (s.listeners b')[k']? = some l) (hL : b' = b → k' = k → l.Fails (cfg b').language h → L) :
    Move L (s.view a b ch k) (view a b ch k
      { s with
        listeners :=
          Function.update s.listeners b' ((s.listeners b').set k' (l.take (cfg b').language h)) })
      [] := by
  by_cases hbk : b' = b ∧ k' = k
  · obtain ⟨rfl, rfl⟩ := hbk
    have hsound := hs.listeners b' l (List.mem_of_getElem? hl)
    have hlt : k' < (s.listeners b').length := (List.getElem?_eq_some_iff.mp hl).1
    simp only [view, processed, queued, Function.update_self, List.getElem?_set_self hlt, hl, Option.map_some,
      Option.getD_some]
    cases hq : l.queue with
    | nil =>
      rw [Listener.take_nil hq, hq]
      exact .stay
    | cons parts queue =>
      cases he : l.ended with
      | true =>
        rw [Listener.take_ended he, hq]
        exact .stay
      | false =>
        obtain ⟨⟨x, y, t, z, rfl⟩, _⟩ := hsound.queue.rest hq
        have hitem : item ch a [x, y, [t], z] = Delivery.item ⟨x, y, [t], z⟩ a ch := by
          simp [item, Delivery.item]
        rcases Listener.take_cons (cfg b').language h hq he with
          htake | ⟨hfails, htake | htake⟩
        · rw [htake]
          simp only [filterMap_cons, filterMap_snoc, hitem]
          exact .advance
        · rw [htake, ← List.append_nil (List.filterMap (item ch a) ([x, y, [t], z] :: queue))]
          exact .lose fun _ => hL rfl rfl hfails
        · -- The processor gets this message, and the rest is lost.
          rw [htake]
          simp only [filterMap_cons, filterMap_snoc, hitem]
          refine .andThen .advance ?_
          rw [← List.append_nil (List.filterMap (item ch a) queue)]
          exact .lose fun _ => hL rfl rfl hfails
  · refine .same ?_
    by_cases hb : b' = b
    · subst hb
      have hk : k' ≠ k := fun h => hbk ⟨rfl, h⟩
      simp [view, processed, queued, List.getElem?_set_ne hk]
    · simp [view, processed, queued, Function.update_of_ne (Ne.symm hb)]

theorem receive_move (b' : Frame) (k' : Nat) (h : Handling) :
    Move (Loses cfg a b ch k s (.receive b' k' h)) (s.view a b ch k)
      ((s.receive cfg b' k' h).view a b ch k) [] := by
  unfold Network.receive
  split
  · exact .stay
  · next l hl =>
    have htake : Move (Loses cfg a b ch k s (.receive b' k' h)) (s.view a b ch k) (view a b ch k
        { s with
          listeners :=
            Function.update s.listeners b' ((s.listeners b').set k' (l.take (cfg b').language h)) })
        [] :=
      take_move hs hl fun hb hk hf => by
        subst hb
        exact ⟨rfl, Or.inl hk, l, hl, hf⟩
    dsimp only
    split
    · next hcrash =>
      refine htake.andThen (crash_move b' fun hb => ?_)
      subst hb
      exact ⟨rfl, Or.inr hcrash.1, l, hl, hcrash.2⟩
    · exact htake

theorem step_move (e : Event) :
    Move (Loses cfg a b ch k s e) (s.view a b ch k) ((s.step cfg e).view a b ch k) (enters a b ch e) := by
  cases e with
  | send a' channel destination type payload =>
    simp only [Network.step, enters]
    by_cases ha : a' = a
    · subst ha
      simp only [view, processed, queued, Function.update_self, filterMap_snoc, if_pos]
      exact .behind (.behind (.behind (.behind .enter)))
    · rw [if_neg ha]
      refine .same ?_
      simp [view, processed, queued, Function.update_of_ne (Ne.symm ha)]
  | forward a' outcome => exact forward_move hs a' outcome
  | arrive a' b' => exact arrive_move hs a' b'
  | lose a' b' => exact dropLink_move a' b'
  | publish b' full => exact publish_move hs b' full
  | listen b' channel =>
    refine .same ?_
    by_cases hb : b' = b
    · subst hb
      rcases Nat.lt_trichotomy k (s.listeners b').length with hk | hk | hk
      · simp [view, processed, queued, Network.step, List.getElem?_append_left hk]
      · simp [view, processed, queued, Network.step, hk]
      · have hnone : (s.listeners b')[k]? = none := List.getElem?_eq_none (by omega)
        have hnone' : (s.listeners b' ++ [⟨channel, [], [], false⟩])[k]? = none :=
          List.getElem?_eq_none (by simp; omega)
        simp [view, processed, queued, Network.step, hnone, hnone']
    · simp [view, processed, queued, Network.step, Function.update_of_ne (Ne.symm hb)]
  | receive b' k' h => exact receive_move hs b' k' h

end Moves

theorem sound_start : Sound {} where
  mailbox := by simp [AllProper]
  link := by simp [AllFrom]
  external := by simp [AllProper]
  listeners := by simp

end Network

end RouteFlow.ZeroMq
