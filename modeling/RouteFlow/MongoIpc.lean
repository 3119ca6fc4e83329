import Mathlib.Data.List.Nodup
import RouteFlow.Lib.Conveyor
import RouteFlow.Tlv

/-!
# Messages through a database

A channel is a capped collection of envelopes. A listener looks for the ones that are for it and not read yet,
processes them one by one and marks each one as read after it was processed.
-/

namespace RouteFlow.Mongo

variable {β : Type}

/-- `natural` is the place in the collection, which the database knows. -/
structure Envelope (β : Type) where
  id : Nat
  natural : Nat
  sender : Text
  destination : Text
  type : Nat
  content : β
  read : Bool
deriving DecidableEq

/-- What a listener looks for. -/
def Envelope.isFor (me : Text) (e : Envelope β) : Bool := e.destination = me ∧ e.read = false

def Envelope.unread (e : Envelope β) : Envelope β := { e with read := false }

/-- Python sorts by `_id`, C++ by `$natural`. -/
inductive Order where
  | id | natural
deriving DecidableEq

/-- What the cursor sorts by. -/
def Envelope.key : Order → Envelope β → Nat
  | .id, e => e.id
  | .natural, e => e.natural

/-- Where a listener is. A cursor goes on after the last key that it got, and what it got is not looked
up again. -/
structure Listener (β : Type) where
  position : Option Nat := none
  batch : List (Envelope β) := []
  -- The `_id` of what was processed and is not marked yet.
  pending : Option Nat := none
  processed : List (Envelope β) := []

/-- `sent` is for the proofs. -/
structure Channel (β : Type) where
  docs : List (Envelope β) := []
  next : Nat := 0
  listeners : Text → Listener β := fun _ => {}
  sent : List (Envelope β) := []

inductive Event (β : Type) where
  | send (sender destination : Text) (id type : Nat) (content : β)
  -- The database makes room: the oldest documents go.
  | evict (n : Nat)
  | find (me : Text)
  -- At most `n` documents come.
  | more (me : Text) (n : Nat)
  | process (me : Text)
  | mark (me : Text)

def putInEnvelope (id natural : Nat) (sender destination : Text) (type : Nat) (content : β) : Envelope β :=
  ⟨id, natural, sender, destination, type, content, false⟩

namespace Channel

variable (order : Text → Order) (s : Channel β)

/-- What the query of a listener finds. -/
def query (me : Text) : List (Envelope β) := s.docs.filter (·.isFor me)

/-- The cursor has not passed the envelope. -/
def after (me : Text) (position : Option Nat) (e : Envelope β) : Bool :=
  position.all fun p => decide (p < e.key (order me))

/-- What the cursor will return, in its order. -/
def found (me : Text) : List (Envelope β) :=
  ((s.query me).filter (after order me (s.listeners me).position)).mergeSort
    fun d e => decide (d.key (order me) ≤ e.key (order me))

def setListener (me : Text) (l : Listener β) : Channel β :=
  { s with listeners := Function.update s.listeners me l }

def step : Event β → Channel β
  | .send sender destination id type content =>
    let e := putInEnvelope id s.next sender destination type content
    { s with docs := s.docs ++ [e], next := s.next + 1, sent := s.sent ++ [e] }
  | .evict n => { s with docs := s.docs.drop n }
  | .find me =>
    let l := s.listeners me
    if l.batch = [] ∧ l.pending = none then s.setListener me { l with position := none } else s
  | .more me n =>
    let l := s.listeners me
    if l.batch = [] ∧ l.pending = none then
      let batch := (s.found order me).take n
      let position := (batch.getLast?.map (Envelope.key (order me))).or l.position
      s.setListener me { l with batch := batch, position := position }
    else s
  | .process me =>
    let l := s.listeners me
    match l.batch, l.pending with
    | e :: batch, none =>
      s.setListener me { l with batch := batch, pending := some e.id, processed := l.processed ++ [e] }
    | _, _ => s
  | .mark me =>
    let l := s.listeners me
    match l.pending with
    | none => s
    | some id =>
      let docs := s.docs.map fun e => if e.id = id then { e with read := true } else e
      { s.setListener me { l with pending := none } with docs := docs }

def run (es : List (Event β)) : Channel β := Run.run (step order) {} es

end Channel

/-! ## At most once -/

def ids (es : List (Envelope β)) : List Nat := es.map (·.id)

@[simp] theorem ids_append (es fs : List (Envelope β)) : ids (es ++ fs) = ids es ++ ids fs := List.map_append

theorem id_mem {e : Envelope β} {es : List (Envelope β)} (h : e ∈ es) : e.id ∈ ids es := List.mem_map_of_mem h

/-- All that the listener got, in the order in which it got it. -/
def Listener.got (l : Listener β) : List (Envelope β) := l.processed ++ l.batch

namespace Channel

/-- The `_id` of an envelope is its own. -/
def Fresh (s : Channel β) : Event β → Prop
  | .send _ _ id _ _ => id ∉ ids s.sent
  | _ => True

/-- What holds in every state, whatever the database does. -/
structure Sound (s : Channel β) : Prop where
  unique : (ids s.sent).Nodup
  docs : (s.docs.map Envelope.unread).Sublist s.sent
  got : ∀ me, ∀ e ∈ (s.listeners me).got, e ∈ s.sent ∧ e.destination = me
  once : ∀ me, (ids (s.listeners me).got).Nodup
  pending : ∀ me id, (s.listeners me).pending = some id → id ∈ ids (s.listeners me).processed
  -- What was processed is marked, but for the last one.
  unread : ∀ e ∈ s.docs, e.read = false → e.id ∈ ids (s.listeners e.destination).processed →
    (s.listeners e.destination).pending = some e.id

variable {order : Text → Order} {s : Channel β}

@[simp] theorem listeners_setListener (me : Text) (l : Listener β) :
    (s.setListener me l).listeners = Function.update s.listeners me l := rfl

theorem Sound.nodup (hs : Sound s) : (ids s.docs).Nodup := by
  have h : ids (s.docs.map Envelope.unread) = ids s.docs := by
    simp only [ids, List.map_map]
    rfl
  rw [← h]
  exact (hs.docs.map _).nodup hs.unique

theorem mem_query {me : Text} {e : Envelope β} : e ∈ s.query me ↔ e ∈ s.docs ∧ e.destination = me ∧
    e.read = false := by
  simp [query, Envelope.isFor]

theorem found_mem {me : Text} {e : Envelope β} (h : e ∈ s.found order me) : e ∈ s.query me :=
  (List.mem_filter.mp (List.mem_mergeSort.mp h)).1

theorem Sound.sent_of_query (hs : Sound s) {me : Text} {e : Envelope β} (h : e ∈ s.query me) :
    e ∈ s.sent ∧ e.destination = me := by
  obtain ⟨hdoc, hme, hread⟩ := mem_query.mp h
  have hself : e.unread = e := by
    cases e
    simp_all [Envelope.unread]
  exact ⟨hself ▸ hs.docs.subset (List.mem_map_of_mem hdoc), hme⟩

theorem Sound.found_nodup (hs : Sound s) (me : Text) (n : Nat) : (ids ((s.found order me).take n)).Nodup := by
  refine ((List.take_sublist n _).map _).nodup ?_
  refine ((List.mergeSort_perm _ _).map Envelope.id).nodup_iff.mpr ?_
  exact ((List.filter_sublist.trans List.filter_sublist).map _).nodup hs.nodup

theorem Sound.setListener (hs : Sound s) {me : Text} {l : Listener β}
    (hgot : ∀ e ∈ l.got, e ∈ s.sent ∧ e.destination = me) (honce : (ids l.got).Nodup)
    (hpending : ∀ id, l.pending = some id → id ∈ ids l.processed)
    (hunread : ∀ e ∈ s.docs, e.read = false → e.destination = me → e.id ∈ ids l.processed →
      l.pending = some e.id) :
    Sound (s.setListener me l) := by
  refine ⟨hs.unique, hs.docs, fun me' e he => ?_, fun me' => ?_, fun me' id h => ?_, fun e he hr h => ?_⟩
  · by_cases hme : me' = me
    · subst hme
      exact hgot e (by simpa using he)
    · exact hs.got me' e (by simpa [hme] using he)
  · by_cases hme : me' = me
    · subst hme
      simpa using honce
    · simpa [hme] using hs.once me'
  · by_cases hme : me' = me
    · subst hme
      simpa using hpending id (by simpa using h)
    · simpa [hme] using hs.pending me' id (by simpa [hme] using h)
  · by_cases hme : e.destination = me
    · subst hme
      simpa using hunread e he hr rfl (by simpa using h)
    · simpa [hme] using hs.unread e he hr (by simpa [hme] using h)

theorem Sound.more (hs : Sound s) (me : Text) (n : Nat) : Sound (s.step order (.more me n)) := by
  simp only [step]
  split
  · next h =>
    obtain ⟨hbatch, hpending⟩ := h
    have hquery : ∀ e ∈ (s.found order me).take n, e ∈ s.query me :=
      fun e he => found_mem (List.mem_of_mem_take he)
    refine hs.setListener (fun e he => ?_) ?_ (fun id h => ?_) (fun e he hr hd hid => ?_)
    · rcases List.mem_append.mp he with he | he
      · exact hs.got me e (List.mem_append_left _ he)
      · exact hs.sent_of_query (hquery e he)
    · have hold := hs.once me
      simp only [Listener.got, hbatch, List.append_nil] at hold
      simp only [Listener.got, ids_append]
      refine hold.append (hs.found_nodup me n) fun id hid hid' => ?_
      obtain ⟨e, he, rfl⟩ := List.mem_map.mp hid'
      obtain ⟨hdoc, hme, hread⟩ := mem_query.mp (hquery e he)
      subst hme
      simp [hs.unread e hdoc hread hid] at hpending
    · exact hs.pending me id h
    · subst hd
      exact hs.unread e he hr hid
  · exact hs

theorem Sound.process (hs : Sound s) (me : Text) : Sound (s.step order (.process me)) := by
  simp only [step]
  split
  · next e batch hbatch hpending =>
    have hsame : (s.listeners me).processed ++ [e] ++ batch = (s.listeners me).got := by
      simp [Listener.got, hbatch]
    refine hs.setListener (fun d hd => ?_) ?_ (fun id h => ?_) (fun d hdoc hr hd hid => ?_)
    · exact hs.got me d (by rwa [← hsame])
    · have hold := hs.once me
      rwa [← hsame] at hold
    · simp only [Option.some.injEq] at h
      simp [← h, ids]
    · subst hd
      rcases List.mem_append.mp (ids_append _ _ ▸ hid) with hid | hid
      · simp [hs.unread d hdoc hr hid] at hpending
      · simp only [ids, List.map_cons, List.map_nil, List.mem_singleton] at hid
        rw [hid]
  · exact hs

theorem Sound.mark (hs : Sound s) (me : Text) : Sound (s.step order (.mark me)) := by
  simp only [step]
  split
  · exact hs
  · next id hpending =>
    -- Nothing but the flag of one document and `pending` change.
    have hl : ∀ me', (Function.update s.listeners me { s.listeners me with pending := none } me').got =
        (s.listeners me').got := by
      intro me'
      by_cases hme : me' = me
      · subst hme
        simp [Listener.got]
      · simp [hme]
    refine ⟨hs.unique, ?_, fun me' e he => hs.got me' e (hl me' ▸ he), fun me' => ?_, fun me' i hi => ?_,
      fun e he hr hid => ?_⟩
    · have hsame : (s.docs.map fun e => if e.id = id then { e with read := true } else e).map
        Envelope.unread =
          s.docs.map Envelope.unread := by
        rw [List.map_map]
        refine List.map_congr_left fun e _ => ?_
        simp only [Function.comp_apply]
        split <;> rfl
      rw [hsame]
      exact hs.docs
    · have honce := hs.once me'
      rwa [← hl me'] at honce
    · by_cases hme : me' = me
      · subst hme
        simp at hi
      · simpa [hme] using hs.pending me' i (by simpa [hme] using hi)
    · obtain ⟨d, hd, rfl⟩ := List.mem_map.mp he
      by_cases hdi : d.id = id
      · simp [hdi] at hr
      · simp only [hdi, if_false] at hr hid ⊢
        by_cases hme : d.destination = me
        · have hold := hs.unread d hd hr (by simpa [hme] using hid)
          rw [hme, hpending, Option.some.injEq] at hold
          exact absurd hold.symm hdi
        · simpa [hme] using hs.unread d hd hr (by simpa [hme] using hid)

theorem Sound.send (hs : Sound s) {sender destination : Text} {id type : Nat} {content : β}
    (hf : id ∉ ids s.sent) :
    Sound (s.step order (.send sender destination id type content)) := by
  have hsub : s.sent ⊆ s.sent ++ [putInEnvelope id s.next sender destination type content] :=
    List.subset_append_left _ _
  refine ⟨?_, ?_, fun me e he => ⟨hsub (hs.got me e he).1, (hs.got me e he).2⟩, hs.once, hs.pending,
    fun e he hr hid => ?_⟩
  · simp only [step, ids_append]
    exact hs.unique.append (List.nodup_singleton _) (by simpa [ids, putInEnvelope] using hf)
  · simp only [step, List.map_append]
    exact hs.docs.append (List.Sublist.refl _)
  · rcases List.mem_append.mp he with he | he
    · exact hs.unread e he hr hid
    · rw [List.mem_singleton.mp he] at hid
      obtain ⟨d, hd, hdi⟩ := List.mem_map.mp hid
      refine absurd ?_ hf
      have hsent := (hs.got _ d (List.mem_append_left _ hd)).1
      have heq : d.id = id := hdi
      exact heq ▸ id_mem hsent

theorem Sound.step (hs : Sound s) {e : Event β} (hf : s.Fresh e) : Sound (s.step order e) := by
  cases e with
  | send sender destination id type content => exact hs.send hf
  | evict n =>
    exact { hs with
      docs := ((List.drop_sublist n _).map _).trans hs.docs
      unread := fun e he => hs.unread e (List.mem_of_mem_drop he) }
  | find me =>
    simp only [Channel.step]
    split
    · refine hs.setListener (hs.got me) (hs.once me) (hs.pending me) fun e he hr hd hid => ?_
      subst hd
      exact hs.unread e he hr hid
    · exact hs
  | more me n => exact hs.more me n
  | process me => exact hs.process me
  | mark me => exact hs.mark me

theorem sound_start : Sound ({} : Channel β) where
  unique := by simp [ids]
  docs := by simp
  got := by simp [Listener.got]
  once := by simp [Listener.got, ids]
  pending := by simp
  unread := by simp

/-! ## In order -/

open Conveyor

variable (me : Text)

/-- The listener does not have the envelope. -/
def isNew (got : List (Envelope β)) (e : Envelope β) : Bool := e.id ∉ ids got

/-- What is in the database for the listener, and new to it. -/
def waiting (s : Channel β) : List (Envelope β) := (s.query me).filter (isNew (s.listeners me).got)

/-- What was sent to the listener, from what it processed to what waits. -/
def view (s : Channel β) : Belt (Envelope β) :=
  [(s.listeners me).processed, (s.listeners me).batch, s.waiting me]

/-- What is for this listener. -/
def addressed (es : List (Envelope β)) : List (Envelope β) := es.filter (·.destination = me)

/-- A document goes that the listener has not got. -/
def Loses (s : Channel β) : Event β → Prop
  | .evict n => ∃ e ∈ s.docs.take n, e ∈ s.waiting me
  | _ => False

def sends (s : Channel β) : Event β → List (Envelope β)
  | .send sender destination id type content => [putInEnvelope id s.next sender destination type content]
  | _ => []

/-- Whoever sorts by `_id` needs those of the envelopes for it to rise. -/
def Rises (order : Text → Order) (s : Channel β) : Event β → Prop
  | .send _ destination id _ _ => destination = me → order me = .id → ∀ e ∈ addressed me s.sent, e.id < id
  | _ => True

/-- What was sent comes in the order of the keys, and the cursor has not passed anything that waits. -/
structure Sorted (order : Text → Order) (s : Channel β) : Prop where
  natural : ∀ e ∈ s.sent, e.natural < s.next
  keys : (addressed me s.sent).Pairwise fun d e => d.key (order me) < e.key (order me)
  position : ∀ p, (s.listeners me).position = some p → ∃ e ∈ (s.listeners me).got, e.key (order me) = p
  inOrder : (s.view me).flatten.Sublist (addressed me s.sent)

variable {me}

theorem view_flatten : (s.view me).flatten = (s.listeners me).got ++ s.waiting me := by
    simp [view, Listener.got]

theorem Sorted.key_lt (ho : Sorted me order s) {d e : Envelope β} (hd : d ∈ (s.listeners me).got)
    (he : e ∈ s.waiting me) : d.key (order me) < e.key (order me) := by
  have h : ((s.listeners me).got ++ s.waiting me).Pairwise fun d e => d.key (order me) < e.key (order me) :=
    List.Pairwise.sublist (view_flatten ▸ ho.inOrder) ho.keys
  exact (List.pairwise_append.mp h).2.2 d hd e he

theorem Sound.waiting_eq (hs : Sound s) (hbatch : (s.listeners me).batch = [])
    (hpending : (s.listeners me).pending = none) :
    s.waiting me = s.query me := by
  refine List.filter_eq_self.mpr fun e he => ?_
  obtain ⟨hdoc, hme, hread⟩ := mem_query.mp he
  subst hme
  simp only [isNew, Listener.got, hbatch, List.append_nil, decide_eq_true_eq]
  intro hid
  simp [hs.unread e hdoc hread hid] at hpending

theorem Sorted.found_eq (hs : Sound s) (ho : Sorted me order s) (hbatch : (s.listeners me).batch = [])
    (hpending : (s.listeners me).pending = none) : s.found order me = s.waiting me := by
  have hw := hs.waiting_eq hbatch hpending
  have hafter : (s.query me).filter (after order me (s.listeners me).position) = s.query me := by
    refine List.filter_eq_self.mpr fun e he => ?_
    cases hp : (s.listeners me).position with
    | none => rfl
    | some p =>
      obtain ⟨d, hd, rfl⟩ := ho.position p hp
      simpa [after] using ho.key_lt hd (hw ▸ he)
  rw [found, hafter, ← hw]
  apply List.mergeSort_of_pairwise
  have hsub : (s.waiting me).Sublist (addressed me s.sent) :=
    (List.sublist_append_right _ _).trans (view_flatten ▸ ho.inOrder)
  exact (ho.keys.sublist hsub).imp fun h => by simpa using h.le

theorem filter_isNew_take {W : List (Envelope β)} (h : (ids W).Nodup) (n : Nat) :
    W.filter (isNew (W.take n)) = W.drop n := by
  have hsplit : W.filter (isNew (W.take n)) =
      (W.take n).filter (isNew (W.take n)) ++ (W.drop n).filter (isNew (W.take n)) := by
    rw [← List.filter_append, List.take_append_drop]
  have hd : List.Disjoint (ids (W.take n)) (ids (W.drop n)) := by
    rw [← List.take_append_drop n W, ids_append] at h
    exact (List.nodup_append'.mp h).2.2
  have h1 : (W.take n).filter (isNew (W.take n)) = [] := by
    refine List.filter_eq_nil_iff.mpr fun e he => ?_
    simpa [isNew] using id_mem he
  have h2 : (W.drop n).filter (isNew (W.take n)) = W.drop n := by
    refine List.filter_eq_self.mpr fun e he => ?_
    simpa [isNew] using fun hid => hd hid (id_mem he)
  rw [hsplit, h1, h2, List.nil_append]

theorem filter_isNew_append (l got more : List (Envelope β)) :
    l.filter (isNew (got ++ more)) = (l.filter (isNew got)).filter (isNew more) := by
  rw [List.filter_filter]
  refine List.filter_congr fun e _ => ?_
  simp [isNew, not_or, Bool.and_comm]

theorem view_setListener_of_ne {me' : Text} (h : me ≠ me') (l : Listener β) :
    (s.setListener me' l).view me = s.view me := by
  simp [view, waiting, query, setListener, h]

theorem evict_move (n : Nat) :
    Move (Loses me s (.evict n)) (s.view me) ((s.step order (.evict n)).view me) [] := by
  have hsplit : s.waiting me =
      ((s.docs.take n).filter (·.isFor me)).filter (isNew (s.listeners me).got) ++
        (s.step order (.evict n)).waiting me := by
    simp only [waiting, query, step]
    rw [← List.filter_append, ← List.filter_append, List.take_append_drop]
  simp only [view]
  rw [hsplit]
  refine .behind (.lose fun hne => ?_)
  obtain ⟨e, he⟩ := List.exists_mem_of_ne_nil _ hne
  exact ⟨e, (List.mem_filter.mp (List.mem_filter.mp he).1).1, by rw [hsplit]; exact List.mem_append_left _ he⟩

theorem send_move (sender destination : Text) (id type : Nat) (content : β) (hs : Sound s)
    (hf : id ∉ ids s.sent) {L : Prop} :
    Move L (s.view me) ((s.step order (.send sender destination id type content)).view me)
      (addressed me (s.sends (.send sender destination id type content))) := by
  have hwait : (s.step order (.send sender destination id type content)).waiting me =
      s.waiting me ++ addressed me (s.sends (.send sender destination id type content)) := by
    have hnew : id ∉ ids (s.listeners me).got := by
      intro hid
      obtain ⟨d, hd, rfl⟩ := List.mem_map.mp hid
      exact hf (id_mem (hs.got me d hd).1)
    simp only [waiting, query, step, sends, addressed, List.filter_append]
    congr 1
    by_cases hme : destination = me
    · simp [putInEnvelope, Envelope.isFor, isNew, hme, hnew]
    · simp [putInEnvelope, Envelope.isFor, hme]
  simp only [view]
  rw [hwait]
  exact .behind (.behind .enter)

theorem more_move (hs : Sound s) (ho : Sorted me order s) (me' : Text) (n : Nat) {L : Prop} :
    Move L (s.view me) ((s.step order (.more me' n)).view me) [] := by
  simp only [step]
  split
  · next h =>
    obtain ⟨hbatch, hpending⟩ := h
    by_cases hme : me = me'
    · subst hme
      have hgot : (s.listeners me).got = (s.listeners me).processed := by simp [Listener.got, hbatch]
      have hnodup : (ids (s.waiting me)).Nodup :=
        ((List.filter_sublist.trans List.filter_sublist).map _).nodup hs.nodup
      have hwait : (s.setListener me { s.listeners me with
          batch := (s.waiting me).take n
          position := (((s.waiting me).take n).getLast?.map (Envelope.key (order me))).or
            (s.listeners me).position }).waiting me = (s.waiting me).drop n := by
        rw [← filter_isNew_take hnodup n]
        simp only [waiting, listeners_setListener, Function.update_self, Listener.got, hbatch,
          List.append_nil, filter_isNew_append]
        rfl
      simp only [view, ho.found_eq hs hbatch hpending]
      rw [hwait]
      simp only [listeners_setListener, Function.update_self, hbatch]
      have h := @Move.advance _ L [] ((s.waiting me).take n) ((s.waiting me).drop n) []
      rw [List.take_append_drop] at h
      exact .behind h
    · rw [view_setListener_of_ne hme]
      exact .stay
  · exact .stay

theorem process_move (me' : Text) {L : Prop} :
    Move L (s.view me) ((s.step order (.process me')).view me) [] := by
  simp only [step]
  split
  · next e batch hbatch hpending =>
    by_cases hme : me = me'
    · subst hme
      have hsame : (s.listeners me).processed ++ [e] ++ batch = (s.listeners me).got := by
        simp [Listener.got, hbatch]
      have hwait : ∀ l : Listener β, l.got = (s.listeners me).got →
        (s.setListener me l).waiting me = s.waiting me := by
        intro l hl
        simp only [waiting, listeners_setListener, Function.update_self, hl]
        rfl
      simp only [view]
      rw [hwait ⟨_, batch, some e.id, (s.listeners me).processed ++ [e]⟩ hsame]
      simp only [listeners_setListener, Function.update_self, hbatch]
      exact @Move.advance _ L _ [e] _ _
    · rw [view_setListener_of_ne hme]
      exact .stay
  · exact .stay

theorem filter_map_self {α : Type} {l : List α} {f : α → α} {p : α → Bool}
    (h : ∀ e ∈ l, p (f e) = p e ∧ (p e = true → f e = e)) : (l.map f).filter p = l.filter p := by
  induction l with
  | nil => rfl
  | cons e l ih =>
    obtain ⟨hp, hf⟩ := h e List.mem_cons_self
    have ih := ih fun x hx => h x (List.mem_cons_of_mem _ hx)
    cases hpe : p e with
    | false => simp [hp, hpe, ih]
    | true => simp [hpe, hf hpe, ih]

theorem Sound.destination (hs : Sound s) {me : Text} {d e : Envelope β} (hd : d ∈ (s.listeners me).got)
    (he : e ∈ s.docs) (hid : e.id = d.id) : e.destination = me := by
  obtain ⟨hdsent, hdme⟩ := hs.got me d hd
  have hesent := hs.docs.subset (List.mem_map_of_mem he)
  have heq := List.inj_on_of_nodup_map hs.unique hesent hdsent (by simpa [Envelope.unread] using hid)
  rw [← hdme, ← heq]
  rfl

theorem mark_view (hs : Sound s) (me' : Text) : (s.step order (.mark me')).view me = s.view me := by
  simp only [step]
  split
  · rfl
  · next id hpending =>
    obtain ⟨d, hd, rfl⟩ := List.mem_map.mp (hs.pending me' id hpending)
    have hgot := List.mem_append_left (s.listeners me').batch hd
    have hl : (Function.update s.listeners me' { s.listeners me' with pending := none } me).processed =
          (s.listeners me).processed ∧
        (Function.update s.listeners me' { s.listeners me' with pending := none } me).batch =
          (s.listeners me).batch := by
      by_cases hme : me = me'
      · subst hme
        simp
      · simp [hme]
    simp only [view, waiting, query, listeners_setListener, Listener.got, hl, List.filter_filter]
    congr 3
    refine filter_map_self fun e he => ?_
    by_cases hid : e.id = d.id
    · have hgone : (isNew (s.listeners me).got e && e.isFor me) = false := by
        by_cases hme : me = me'
        · subst hme
          have hin := id_mem hgot
          rw [← hid] at hin
          have hnew : isNew (s.listeners me).got e = false := decide_eq_false fun h => h hin
          rw [hnew, Bool.false_and]
        · simp [Envelope.isFor, hs.destination hgot he hid, Ne.symm hme]
      simp only [Listener.got] at hgone
      refine ⟨?_, fun h => ?_⟩
      · rw [hgone, if_pos hid]
        simp [Envelope.isFor]
      · rw [hgone] at h
        cases h
    · simp [hid]

theorem step_move (hs : Sound s) (ho : Sorted me order s) {e : Event β} (hf : s.Fresh e) :
    Move (Loses me s e) (s.view me) ((s.step order e).view me) (addressed me (s.sends e)) := by
  cases e with
  | send sender destination id type content => exact send_move sender destination id type content hs hf
  | evict n => exact evict_move n
  | find me' =>
    refine .same ?_
    simp only [step]
    split
    · by_cases hme : me = me'
      · subst hme
        simp [view, waiting, query, setListener, Listener.got]
      · exact view_setListener_of_ne hme _
    · rfl
  | more me' n => exact more_move hs ho me' n
  | process me' => exact process_move me'
  | mark me' => exact .same (mark_view hs me')

theorem step_sent (e : Event β) :
    (s.step order e).sent = s.sent ++ s.sends e ∧ s.next ≤ (s.step order e).next ∧
      ∀ d ∈ s.sends e, d.natural < (s.step order e).next := by
  cases e with
  | send => simp [step, sends, putInEnvelope]
  | evict => simp [step, sends]
  | find | more | process | mark =>
    simp only [step, sends]
    split <;> simp [setListener]

/-- A listener is somewhere between what it got and the rest. -/
def Placed (order : Text → Order) (me : Text) (l : Listener β) : Prop :=
  ∀ p, l.position = some p → ∃ e ∈ l.got, e.key (order me) = p

theorem placed_setListener (h : Placed order me (s.listeners me)) {me' : Text} {l : Listener β}
    (hl : me = me' → Placed order me l) : Placed order me ((s.setListener me' l).listeners me) := by
  by_cases hme : me = me'
  · subst hme
    simpa using hl rfl
  · simpa [hme] using h

theorem placed_step (h : Placed order me (s.listeners me)) (e : Event β) :
    Placed order me ((s.step order e).listeners me) := by
  cases e with
  | send | evict => exact h
  | find me' =>
    simp only [step]
    split
    · exact placed_setListener h fun _ p hp => by simp at hp
    · exact h
  | more me' n =>
    simp only [step]
    split
    · next hnone =>
      refine placed_setListener h fun hme p hp => ?_
      subst hme
      simp only [Option.or_eq_some_iff, Option.map_eq_some_iff, Option.map_eq_none_iff] at hp
      rcases hp with ⟨e, he, rfl⟩ | ⟨_, hp⟩
      · exact ⟨e, List.mem_append_right _ (List.mem_of_getLast? he), rfl⟩
      · obtain ⟨e, he, rfl⟩ := h p hp
        rw [Listener.got, hnone.1, List.append_nil] at he
        exact ⟨e, List.mem_append_left _ he, rfl⟩
    · exact h
  | process me' =>
    simp only [step]
    split
    · next e batch hbatch _ =>
      refine placed_setListener h fun hme p hp => ?_
      subst hme
      obtain ⟨d, hd, rfl⟩ := h p hp
      refine ⟨d, ?_, rfl⟩
      simpa [Listener.got, hbatch] using hd
    · exact h
  | mark me' =>
    simp only [step]
    split
    · exact h
    · exact placed_setListener h fun hme p hp => by
        subst hme
        exact h p hp

theorem sends_key (ho : Sorted me order s) {e : Event β} (hr : s.Rises me order e) :
    (addressed me (s.sends e)).Pairwise (fun c d => c.key (order me) < d.key (order me)) ∧
      ∀ c ∈ addressed me s.sent, ∀ d ∈ addressed me (s.sends e), c.key (order me) < d.key (order me) := by
  cases e with
  | send sender destination id type content =>
    by_cases hme : destination = me
    · have hone : addressed me (s.sends (.send sender destination id type content)) =
          [putInEnvelope id s.next sender destination type content] := by
        simp [addressed, sends, putInEnvelope, hme]
      rw [hone]
      refine ⟨List.pairwise_singleton _ _, fun c hc d hd => ?_⟩
      rw [List.mem_singleton.mp hd]
      cases hord : order me with
      | id => exact hr hme hord c hc
      | natural => exact ho.natural c (List.mem_filter.mp hc).1
    · have hnone : addressed me (s.sends (.send sender destination id type content)) = [] := by
        simp [addressed, sends, putInEnvelope, hme]
      simp [hnone]
  | evict | find | more | process | mark => simp [sends, addressed]

theorem Sorted.step (hs : Sound s) (ho : Sorted me order s) {e : Event β} (hf : s.Fresh e)
    (hr : s.Rises me order e) :
    Sorted me order (s.step order e) := by
  obtain ⟨hsent, hnext, hnew⟩ := @step_sent _ order s e
  obtain ⟨hpair, hlt⟩ := sends_key ho hr
  refine ⟨fun d hd => ?_, ?_, placed_step ho.position e, ?_⟩
  · rw [hsent] at hd
    rcases List.mem_append.mp hd with hd | hd
    · exact lt_of_lt_of_le (ho.natural d hd) hnext
    · exact hnew d hd
  · rw [hsent, addressed, List.filter_append]
    exact List.pairwise_append.mpr ⟨ho.keys, hpair, hlt⟩
  · rw [hsent, addressed, List.filter_append]
    exact (step_move hs ho hf).sublist.trans (ho.inOrder.append_right _)

theorem sorted_start : Sorted me order ({} : Channel β) where
  natural := by simp
  keys := by simp [addressed]
  position := by simp
  inOrder := by simp [view, waiting, query, addressed]

end Channel

open Channel

/-- Whatever the senders, the listeners and the database do in whatever order, no listener processes an
envelope that is not for it, and none twice. -/
theorem processed_once (order : Text → Order) (es : List (Event β))
    (hf : Run.Along (step order) Fresh {} es) (me : Text) :
    (ids ((Channel.run order es).listeners me).processed).Nodup ∧
      ∀ e ∈ ((Channel.run order es).listeners me).processed, e ∈ (Channel.run order es).sent ∧
      e.destination = me := by
  have hs : Sound (Channel.run order es) := Run.invariant (fun s e hf hs => hs.step hf) sound_start hf
  refine ⟨?_, fun e he => hs.got me e (List.mem_append_left _ he)⟩
  have h := hs.once me
  rw [Listener.got, ids_append] at h
  exact (List.nodup_append'.mp h).1

/-- Two messages for a server that gets both at once and processes them. -/
def twoMessages : List (Event Nat) :=
  [.send ['7'] ['s'] 1 0 10, .send ['7'] ['s'] 2 0 20, .find ['s'], .more ['s'] 10,
    .process ['s'], .mark ['s'], .process ['s']]

theorem twoMessages_fresh : Run.Along (step fun _ => .natural) Fresh ({} : Channel Nat) twoMessages := by
  simp [twoMessages, Run.Along, Fresh, step, ids, putInEnvelope]

theorem processed_once_two :
    (ids ((Channel.run (fun _ => .natural) twoMessages).listeners ['s']).processed).Nodup :=
  (processed_once _ _ twoMessages_fresh ['s']).1

/-- A listener that sorts by place, or by `_id` if these rise, processes in the order of sending. If
nothing was evicted before the listener got it, then it processes all. -/
theorem processed_in_order (order : Text → Order) (es : List (Event β)) (me : Text)
    (hf : Run.Along (step order) (fun s e => s.Fresh e ∧ s.Rises me order e) {} es) :
    ((Channel.run order es).listeners me).processed.Sublist (addressed me (Channel.run order es).sent) ∧
      (Run.Along (step order) (fun s e => (s.Fresh e ∧ s.Rises me order e) ∧ ¬Loses me s e) {} es →
        ((Channel.run order es).listeners me).got ++ (Channel.run order es).waiting me =
          addressed me (Channel.run order es).sent) := by
  have hboth : Sound (Channel.run order es) ∧ Sorted me order (Channel.run order es) :=
    Run.invariant (I := fun s => Sound s ∧ Sorted me order s)
      (fun s e hc h => ⟨h.1.step hc.1, h.2.step h.1 hc.1 hc.2⟩) ⟨sound_start, sorted_start⟩ hf
  constructor
  · refine List.Sublist.trans ?_ hboth.2.inOrder
    rw [view_flatten, Listener.got, List.append_assoc]
    exact List.sublist_append_left _ _
  · intro hall
    have h := Run.invariant
      (I := fun s => (Sound s ∧ Sorted me order s) ∧ (s.view me).flatten = addressed me s.sent)
      (fun s e hc h => ⟨⟨h.1.1.step hc.1.1, h.1.2.step h.1.1 hc.1.1 hc.1.2⟩, by
        rw [(step_move h.1.1 h.1.2 hc.1.1).flatten hc.2, h.2, (step_sent e).1, addressed,
          addressed, addressed, List.filter_append]⟩)
      ⟨⟨sound_start, sorted_start⟩, by simp [view, waiting, query, addressed]⟩ hall
    exact @view_flatten _ _ me ▸ h.2

/-- The `_id` of an envelope for somebody else is above those for the server. -/
def threeMessages : List (Event Nat) :=
  [.send ['7'] ['t'] 5 0 50, .send ['7'] ['s'] 3 0 30, .send ['7'] ['s'] 4 0 40, .find ['s'], .more ['s'] 10,
    .process ['s'], .mark ['s'], .process ['s']]

theorem processed_in_order_three :
    ((Channel.run (fun _ => .id) threeMessages).listeners ['s']).processed.Sublist
      (addressed ['s'] (Channel.run (fun _ => .id) threeMessages).sent) :=
  (processed_in_order _ _ ['s']
    (by simp [threeMessages, Run.Along, Fresh, Rises, step, ids, putInEnvelope, addressed])).1

end RouteFlow.Mongo
