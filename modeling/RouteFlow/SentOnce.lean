import RouteFlow.ResolverThread
import RouteFlow.Lib.Once

/-!
# Routes are sent once

The host table only grows, so a gateway that was found at the first look is found at the second. A route that
waits is sent by the first sweep that finds its gateway, and one that was sent is taken back when it goes.
-/

namespace RouteFlow

open FlowTable Once

/-- The key of the route that a call is for. -/
def HwCall.key (inet : Inet) (c : HwCall) : Text :=
  c.addr.toText inet ++ '/' :: (c.mask.toText inet ++ (" via ".toList ++ c.mask.toText inet))

/-- What the log entry means for its route. -/
def Note.deed (inet : Inet) : Note → Option (Deed Text)
  | .inserted key => some (.inserted key)
  | .erased key => some (.erased key)
  | .route c =>
    match c.mod with
    | .add => some (.added (c.key inet))
    | .delete => some (.removed (c.key inet))
    | _ => none
  | .host _ => none

def Note.call : Note → Option HwCall
  | .route c | .host c => some c
  | .inserted _ | .erased _ => none

/-! ## Places -/

/-- The route that is in the table, and neither sent yet nor in `unresolvedRoutes`. -/
def Place.held (inet : Inet) : Place → Option Text
  | .check re => some (re.toString inet)
  | .send .add re => some (re.toString inet)
  | _ => none

/-- The route that is out of the table, and not yet taken back. -/
def Place.owed (inet : Inet) : Place → Option Text
  | .send .delete re => some (re.toString inet)
  | _ => none

/-- The routes that the sweep has sent. -/
def Place.swept : Place → List Text
  | .sweep _ resolved => resolved
  | .resend _ _ _ resolved => resolved
  | _ => []

namespace ResolverThread

variable {vmId : Nat} {inet : Inet}

/-- The log, for the routes only. -/
def deeds (inet : Inet) (s : ResolverThread) : List (Deed Text) := s.log.filterMap (Note.deed inet)

/-! ## The host table -/

/-- The table has an address for the host. -/
def Known (inet : Inet) (ft : FlowTable) (a : IPAddress) : Prop := ft.findHost inet a ≠ MAC_ADDR_NONE

theorem findHost_congr {ft ft' : FlowTable} (h : ft'.hostTable = ft.hostTable) (a : IPAddress) :
    ft'.findHost inet a = ft.findHost inet a := by
  unfold findHost
  rw [h]

theorem handOver_hostTable (ft : FlowTable) (c : HwCall) : (ft.handOver vmId c).hostTable = ft.hostTable := by
  unfold handOver
  split <;> rfl

theorem updateHostTable_known {ft : FlowTable} {hentry : HostEntry} (hmac : hentry.hwaddress ≠ MAC_ADDR_NONE)
    {a : IPAddress} (h : Known inet ft a) : Known inet (ft.updateHostTable vmId inet hentry) a := by
  unfold Known findHost updateHostTable at *
  dsimp only
  rw [handOver_hostTable]
  by_cases ha : a.toText inet = hentry.address.toText inet
  · rw [ha, AList.lookup_insert]
    exact hmac
  · rw [AList.lookup_insert_ne ha]
    exact h

/-! ## What is noted -/

theorem noting_log {s : ResolverThread} {f : FlowTable → FlowTable} {cs : List HwCall}
    (h : (f s.ft).calls = s.ft.calls ++ cs) (note : HwCall → Note) :
    (s.noting note f).log = s.log ++ cs.map note := by
  unfold noting
  dsimp only
  rw [h, List.drop_left]

theorem stage_noted {s s' : ResolverThread} {note : Note} {d : Deed Text} (hlog : s'.log = s.log ++ [note])
    (hd : note.deed inet = some d) (k : Text) :
    stage k (s'.deeds inet) =
      if d.key = k then (stage k (s.deeds inet)).bind (next · d) else stage k (s.deeds inet) := by
  have hdeeds : s'.deeds inet = s.deeds inet ++ [d] := by
    unfold deeds
    rw [hlog, List.filterMap_append, List.filterMap_cons_some hd, List.filterMap_nil]
  rw [hdeeds, Once.stage_snoc]

theorem deeds_host (s : ResolverThread) (hentry : HostEntry) :
    (s.noting .host (·.updateHostTable vmId inet hentry)).deeds inet = s.deeds inet := by
  unfold deeds
  rw [noting_log (handOver_calls _ _), List.filterMap_append]
  exact List.append_nil _

theorem noting_send_known {s : ResolverThread} {re : RouteEntry} (h : Known inet s.ft re.gateway)
    (mod : RouteModType) :
    (s.noting .route (·.sendRouteToHw vmId inet mod re)).log =
      s.log ++ [.route ⟨mod, re.address, re.netmask, re.interface, s.ft.findHost inet re.gateway⟩] := by
  have hcalls : (s.ft.sendRouteToHw vmId inet mod re).calls =
      s.ft.calls ++ [⟨mod, re.address, re.netmask, re.interface, s.ft.findHost inet re.gateway⟩] := by
    rw [sendRouteToHw_known h, handOver_calls]
  exact @noting_log s (·.sendRouteToHw vmId inet mod re) _ hcalls .route

theorem noting_send_unknown {s : ResolverThread} {re : RouteEntry} (h : ¬ Known inet s.ft re.gateway)
    (mod : RouteModType) : s.noting .route (·.sendRouteToHw vmId inet mod re) = s := by
  unfold noting
  dsimp only
  rw [sendRouteToHw_unknown (not_not.mp h)]
  simp

theorem sendRouteToHw_hostTable (ft : FlowTable) (mod : RouteModType) (re : RouteEntry) :
    (ft.sendRouteToHw vmId inet mod re).hostTable = ft.hostTable := by
  by_cases h : Known inet ft re.gateway
  · rw [sendRouteToHw_known h, handOver_hostTable]
  · rw [sendRouteToHw_unknown (not_not.mp h)]

/-! ## Where a route stands -/

/-- `k` is in the table and was not sent yet. -/
def Waits (inet : Inet) (s : ResolverThread) (k : Text) : Prop :=
  s.place.held inet = some k ∨ (k ∈ s.ft.unresolvedRoutes ∧ k ∉ s.place.swept)

/-- The stage of `k` is the one that the state shows. -/
structure Stands (inet : Inet) (s : ResolverThread) (k : Text) : Prop where
  waiting : k ∈ s.ft.routeTable → Waits inet s k → stage k (s.deeds inet) = some .waiting
  sent : ∀ e, s.ft.routeTable.lookup k = some e → ¬ Waits inet s k →
    stage k (s.deeds inet) = some .sent ∧ Known inet s.ft e.gateway
  owed : k ∉ s.ft.routeTable → s.place.owed inet = some k →
    stage k (s.deeds inet) = some .leaving ∨ stage k (s.deeds inet) = some .released
  gone : k ∉ s.ft.routeTable → s.place.owed inet ≠ some k →
    stage k (s.deeds inet) = some .absent ∨ stage k (s.deeds inet) = some .released

/-- The gateway of a route that is being sent was found. A route that goes was sent only if its gateway
was. -/
def Assured (inet : Inet) (s : ResolverThread) : Prop :=
  match s.place with
  | .send .add re | .resend _ re _ _ => Known inet s.ft re.gateway
  | .send .delete re => stage (re.toString inet) (s.deeds inet) = some .leaving → Known inet s.ft re.gateway
  | _ => True

structure Sound (inet : Inet) (s : ResolverThread) : Prop where
  assured : Assured inet s
  stands : ∀ k, Stands inet s k

theorem Stands.frame {s s' : ResolverThread} {k : Text} (h : Stands inet s k)
    (htable : s'.ft.routeTable.lookup k = s.ft.routeTable.lookup k)
    (hwaits : Waits inet s' k ↔ Waits inet s k)
    (howed : s'.place.owed inet = some k ↔ s.place.owed inet = some k)
    (hstage : stage k (s'.deeds inet) = stage k (s.deeds inet))
    (hknown : ∀ a, Known inet s.ft a → Known inet s'.ft a) : Stands inet s' k := by
  have hmem : k ∈ s'.ft.routeTable ↔ k ∈ s.ft.routeTable := by
    rw [← AList.lookup_isSome, htable, AList.lookup_isSome]
  refine ⟨?_, ?_, ?_, ?_⟩
  · rw [hmem, hwaits, hstage]
    exact h.waiting
  · rw [htable, hwaits, hstage]
    intro e he hw
    exact (h.sent e he hw).imp id (hknown _)
  · rw [hmem, howed, hstage]
    exact h.owed
  · rw [hmem, ne_eq, howed, hstage]
    exact h.gone

theorem Sound.frame {s s' : ResolverThread} (h : Sound inet s) (htable : s'.ft.routeTable = s.ft.routeTable)
    (hunresolved : s'.ft.unresolvedRoutes = s.ft.unresolvedRoutes) (hplace : s'.place = s.place)
    (hdeeds : s'.deeds inet = s.deeds inet) (hknown : ∀ a, Known inet s.ft a → Known inet s'.ft a) :
    Sound inet s' := by
  refine ⟨?_, ?_⟩
  · have ha := h.assured
    unfold Assured at ha ⊢
    rw [hplace, hdeeds]
    cases hpl : s.place with
    | drain | check | sweep => trivial
    | send mod re =>
      rw [hpl] at ha
      cases mod with
      | add => exact hknown _ ha
      | delete => exact fun hl => hknown _ (ha hl)
      | controller | addGroup | deleteGroup | unknown => trivial
    | resend key re todo resolved =>
      rw [hpl] at ha
      exact hknown _ ha
  · intro k
    refine (h.stands k).frame ?_ ?_ ?_ ?_ hknown
    · rw [htable]
    · unfold Waits
      rw [hplace, hunresolved]
    · rw [hplace]
    · rw [hdeeds]

theorem Sound.assured_at {s : ResolverThread} (h : Sound inet s) {place : Place} (hplace : s.place = place) :
    Assured inet { s with place := place } := by
  subst hplace
  exact h.assured

/-! ## Steps -/

/-- A neighbour has a MAC, and a delete names the gateway of the route that is stored. -/
def Proper (inet : Inet) (s : ResolverThread) : Act → Prop
  | .route _ => True
  | .host hentry => hentry.hwaddress ≠ MAC_ADDR_NONE
  | .look => s.place = .drain → ∀ pr ∈ s.ft.pendingRoutes.head?, pr.type = .delete →
      ∀ e ∈ s.ft.routeTable.lookup (pr.rentry.toString inet), e.gateway = pr.rentry.gateway

instance (inet : Inet) (s : ResolverThread) : (a : Act) → Decidable (Proper inet s a)
  | .route _ => isTrue trivial
  | .host hentry => inferInstanceAs (Decidable (hentry.hwaddress ≠ MAC_ADDR_NONE))
  | .look => inferInstanceAs (Decidable (s.place = .drain → ∀ pr ∈ s.ft.pendingRoutes.head?,
    pr.type = .delete →
      ∀ e ∈ s.ft.routeTable.lookup (pr.rentry.toString inet), e.gateway = pr.rentry.gateway))

theorem take_add {s : ResolverThread} {re : RouteEntry} (h : Sound inet s)
    (hplace : s.place = .drain) :
    Sound inet (take inet s ⟨.add, re⟩) := by
  unfold take
  dsimp only
  split
  · exact h
  rename_i hmem
  have hstage := @stage_noted inet s
    { ft := { s.ft with routeTable := s.ft.routeTable.insert (re.toString inet) re }
      place := .check re
      log := s.log ++ [.inserted (re.toString inet)] } _ _ rfl rfl
  refine ⟨trivial, ?_⟩
  intro k
  by_cases hk : k = re.toString inet
  · subst hk
    have hnow : re.toString inet ∈ s.ft.routeTable.insert (re.toString inet) re :=
      (AList.mem_insert _).mpr (Or.inl rfl)
    refine ⟨?_, ?_, fun hno => absurd hnow hno, fun hno => absurd hnow hno⟩
    · intro _ _
      refine (hstage _).trans ((if_pos rfl).trans ?_)
      rcases (h.stands _).gone hmem (by rw [hplace]; exact nofun) with hst | hst
      · rw [hst]
        rfl
      · rw [hst]
        rfl
    · intro e _ hw
      exact absurd (Or.inl rfl) hw
  · apply (h.stands k).frame
    · exact AList.lookup_insert_ne hk
    · unfold Waits
      rw [hplace]
      simp [Place.held, Place.swept, Ne.symm hk]
    · rw [hplace]
      simp [Place.owed]
    · exact (hstage k).trans (if_neg (Ne.symm hk))
    · exact fun a ha => ha

theorem take_delete {s : ResolverThread} {re : RouteEntry} (hp : Placed inet s) (h : Sound inet s)
    (hplace : s.place = .drain)
    (hgateway : ∀ e, s.ft.routeTable.lookup (re.toString inet) = some e → e.gateway = re.gateway) :
    Sound inet (take inet s ⟨.delete, re⟩) := by
  unfold take
  dsimp only
  split
  swap
  · exact h
  rename_i hmem
  have hgone : re.toString inet ∉ s.ft.routeTable.erase (re.toString inet) := by simp [AList.mem_erase]
  have hstage := @stage_noted inet s
    { ft := { s.ft with
        routeTable := s.ft.routeTable.erase (re.toString inet)
        unresolvedRoutes := s.ft.unresolvedRoutes.erase (re.toString inet) }
      place := .send .delete re
      log := s.log ++ [.erased (re.toString inet)] } _ _ rfl rfl
  obtain ⟨e, he⟩ := exists_lookup hmem
  have hkey := (hstage (re.toString inet)).trans (if_pos rfl)
  refine ⟨?_, ?_⟩
  · -- It is leaving because it was sent, so its gateway was found.
    intro hleaving
    rw [hkey] at hleaving
    by_cases hw : Waits inet s (re.toString inet)
    · rw [(h.stands _).waiting hmem hw] at hleaving
      cases hleaving
    · rw [← hgateway e he]
      exact ((h.stands _).sent e he hw).2
  · intro k
    by_cases hk : k = re.toString inet
    · subst hk
      refine ⟨fun hin => absurd hin hgone, ?_, ?_, fun _ hno => absurd rfl hno⟩
      · intro e he
        rw [AList.lookup_erase] at he
        cases he
      · intro _ _
        rw [hkey]
        by_cases hw : Waits inet s (re.toString inet)
        · rw [(h.stands _).waiting hmem hw]
          exact Or.inr rfl
        · rw [((h.stands _).sent e he hw).1]
          exact Or.inl rfl
    · apply (h.stands k).frame
      · exact AList.lookup_erase_ne hk
      · unfold Waits
        rw [hplace, hp.listed.nodup.mem_erase_iff]
        simp [Place.held, Place.swept, hk]
      · rw [hplace]
        simp [Place.owed, Ne.symm hk]
      · exact (hstage k).trans (if_neg (Ne.symm hk))
      · exact fun a ha => ha

theorem known_of_hostTable {ft ft' : FlowTable} (h : ft'.hostTable = ft.hostTable) {a : IPAddress}
    (ha : Known inet ft a) : Known inet ft' a := by
  unfold Known
  rw [findHost_congr h]
  exact ha

theorem Sound.move {s : ResolverThread} (h : Sound inet s) {old place : Place} {r : Resolver}
    (hold : s.place = old) (hheld : place.held inet = old.held inet) (howed : place.owed inet = old.owed inet)
    (hswept : place.swept = old.swept)
    (hassured : Assured inet { s with ft := { s.ft with resolver := r }, place := place }) :
    Sound inet { s with ft := { s.ft with resolver := r }, place := place } := by
  refine ⟨hassured, ?_⟩
  intro k
  refine (h.stands k).frame rfl ?_ ?_ rfl fun _ ha => ha
  · unfold Waits
    dsimp only
    rw [hold, hheld, hswept]
  · dsimp only
    rw [hold, howed]

theorem look_check {s : ResolverThread} {re : RouteEntry} (h : Sound inet s) (hplace : s.place = .check re) :
    Sound inet (s.look vmId inet) := by
  rw [look_check_eq hplace]
  split
  · refine ⟨trivial, ?_⟩
    intro k
    refine (h.stands k).frame rfl ?_ ?_ rfl fun _ ha => ha
    · unfold Waits
      rw [hplace, mem_insertKey]
      simp only [Place.held, Place.swept, List.not_mem_nil, not_false_eq_true, and_true,
        reduceCtorEq, false_or, Option.some.injEq]
      exact or_congr eq_comm Iff.rfl
    · rw [hplace]
      simp [Place.owed]
  · rename_i hknown
    exact h.move hplace rfl rfl rfl hknown

theorem stands_sent {s s' : ResolverThread} (hp : Placed inet s) (h : Sound inet s) {key : Text}
    {re : RouteEntry} (hlookup : s.ft.routeTable.lookup key = some re) (hwaits : Waits inet s key)
    (hknown : Known inet s.ft re.gateway) (hft : s'.ft = s.ft.sendRouteToHw vmId inet .add re)
    (hlog : s'.log = (s.noting .route (·.sendRouteToHw vmId inet .add re)).log)
    (hothers : ∀ k, Waits inet s' k ↔ Waits inet s k ∧ k ≠ key)
    (howed : s.place.owed inet = none) (howed' : s'.place.owed inet = none) (k : Text) :
    Stands inet s' k := by
  have hsame := @sendRouteToHw_sameRoutes inet vmId s.ft .add re
  have hknown' : ∀ a, Known inet s.ft a → Known inet s'.ft a := by
    rw [hft]
    exact fun a => known_of_hostTable (sendRouteToHw_hostTable s.ft .add re)
  have hdeed : (Note.route ⟨.add, re.address, re.netmask, re.interface,
    s.ft.findHost inet re.gateway⟩).deed inet =
      some (.added key) := congrArg (fun k => some (Deed.added k)) (hp.keyed key re hlookup)
  have hstage := stage_noted (hlog.trans (noting_send_known hknown .add)) hdeed
  have htable : s'.ft.routeTable = s.ft.routeTable := by rw [hft, hsame.table]
  have hmem : key ∈ s.ft.routeTable := mem_of_lookup hlookup
  by_cases hk : k = key
  · subst hk
    rw [← htable] at hmem hlookup
    refine ⟨fun _ hw => absurd rfl ((hothers k).mp hw).2, ?_, fun hno => absurd hmem hno,
      fun hno => absurd hmem hno⟩
    intro e he _
    obtain rfl : re = e := Option.some.inj (hlookup.symm.trans he)
    refine ⟨(hstage k).trans ((if_pos rfl).trans ?_), hknown' _ hknown⟩
    rw [htable] at hmem
    rw [(h.stands k).waiting hmem hwaits]
    rfl
  · refine (h.stands k).frame ?_ ?_ ?_ ((hstage k).trans (if_neg (Ne.symm hk))) hknown'
    · rw [htable]
    · rw [hothers]
      exact and_iff_left hk
    · rw [howed, howed']

theorem look_send_add {s : ResolverThread} {re : RouteEntry} (hp : Placed inet s) (h : Sound inet s)
    (hplace : s.place = .send .add re) : Sound inet (s.look vmId inet) := by
  obtain ⟨hlookup, hno⟩ := hp.at_place hplace
  have hknown : Known inet s.ft re.gateway := h.assured_at hplace
  have hsame := @sendRouteToHw_sameRoutes inet vmId s.ft .add re
  rw [look_send_eq hplace]
  refine ⟨trivial, stands_sent hp h hlookup (Or.inl (by rw [hplace]; rfl))
    hknown rfl rfl ?_ (by rw [hplace]; rfl) rfl⟩
  intro k
  unfold Waits
  rw [hplace]
  unfold noting
  dsimp only
  rw [hsame.unresolved]
  simp only [Place.held, Place.swept, List.not_mem_nil, not_false_eq_true, and_true, reduceCtorEq, false_or,
    Option.some.injEq]
  constructor
  · intro hk
    exact ⟨Or.inr hk, by rintro rfl; exact hno hk⟩
  · rintro ⟨rfl | hk, hne⟩
    · exact absurd rfl hne
    · exact hk

theorem stands_settled {s s' : ResolverThread} (h : Sound inet s) {key : Text} (hgone : key ∉ s.ft.routeTable)
    (howed : s.place.owed inet = some key) (htable : s'.ft.routeTable = s.ft.routeTable)
    (hwaits : ∀ k, Waits inet s' k ↔ Waits inet s k) (howed' : s'.place.owed inet = none)
    (hothers : ∀ k, key ≠ k → stage k (s'.deeds inet) = stage k (s.deeds inet))
    (hkey : stage key (s'.deeds inet) = some .absent ∨ stage key (s'.deeds inet) = some .released)
    (hknown : ∀ a, Known inet s.ft a → Known inet s'.ft a) (k : Text) : Stands inet s' k := by
  by_cases hk : key = k
  · subst hk
    rw [← htable] at hgone
    refine ⟨fun hin => absurd hin hgone, ?_, fun _ ho => ?_, fun _ _ => hkey⟩
    · intro e he
      exact absurd (mem_of_lookup he) hgone
    · rw [howed'] at ho
      cases ho
  · refine (h.stands k).frame (by rw [htable]) (hwaits k) ?_ (hothers k hk) hknown
    rw [howed, howed']
    simp [hk]

theorem look_send_delete {s : ResolverThread} {re : RouteEntry} (hp : Placed inet s) (h : Sound inet s)
    (hplace : s.place = .send .delete re) : Sound inet (s.look vmId inet) := by
  have hgone : re.toString inet ∉ s.ft.routeTable := hp.at_place hplace
  have hleaving := h.assured_at hplace
  have howed : s.place.owed inet = some (re.toString inet) := by rw [hplace]; rfl
  have hstands := (h.stands _).owed hgone howed
  have hsame := @sendRouteToHw_sameRoutes inet vmId s.ft .delete re
  rw [look_send_eq hplace]
  refine ⟨trivial, ?_⟩
  have hwaits : ∀ k,
      Waits inet { s.noting .route (·.sendRouteToHw vmId inet .delete re) with place := .drain } k ↔
        Waits inet s k := by
    intro k
    unfold Waits
    rw [hplace]
    exact or_congr (by simp [Place.held]) (and_congr (by rw [← hsame.unresolved]; rfl) Iff.rfl)
  have hhost : ∀ a, Known inet s.ft a → Known inet (s.ft.sendRouteToHw vmId inet .delete re) a :=
    fun a => known_of_hostTable (sendRouteToHw_hostTable s.ft .delete re)
  by_cases hknown : Known inet s.ft re.gateway
  · have hstage := @stage_noted inet s
      { s.noting .route (·.sendRouteToHw vmId inet .delete re) with place := .drain }
      _ _ (noting_send_known hknown .delete) rfl
    refine stands_settled h hgone howed hsame.table hwaits rfl ?_ ?_ hhost
    · exact fun k hk => (hstage k).trans (if_neg hk)
    · refine Or.inl ((hstage _).trans ((if_pos rfl).trans ?_))
      rcases hstands with hst | hst
      · rw [hst]
        rfl
      · rw [hst]
        rfl
  · -- It was not sent, so it is not missed.
    refine stands_settled h hgone howed hsame.table hwaits rfl ?_ ?_ hhost
    · intro k _
      rw [noting_send_unknown hknown]
      rfl
    · rw [noting_send_unknown hknown]
      exact Or.inr (hstands.resolve_left fun hl => hknown (hleaving hl))

theorem look_sweep_next {s : ResolverThread} {key : Text} {todo resolved : List Text} (hp : Placed inet s)
    (h : Sound inet s) (hplace : s.place = .sweep (key :: todo) resolved) :
    Sound inet (s.look vmId inet) := by
  obtain ⟨-, htodo⟩ := hp.at_place hplace
  have hmem := hp.listed.mem_table key (htodo key List.mem_cons_self)
  obtain ⟨e, he⟩ := exists_lookup hmem
  rw [look_sweep_cons hplace hmem he]
  split
  · exact h.move hplace rfl rfl rfl trivial
  · rename_i hknown
    exact h.move hplace rfl rfl rfl hknown

theorem look_sweep_end {s : ResolverThread} {resolved : List Text} (hp : Placed inet s) (h : Sound inet s)
    (hplace : s.place = .sweep [] resolved) : Sound inet (s.look vmId inet) := by
  rw [look_sweep_nil hplace]
  refine ⟨trivial, ?_⟩
  intro k
  refine (h.stands k).frame rfl ?_ ?_ rfl fun _ ha => ha
  · unfold Waits
    rw [hplace]
    dsimp only
    rw [hp.listed.nodup.mem_sdiff_iff]
    simp [Place.held, Place.swept]
  · rw [hplace]
    simp [Place.owed]

theorem look_resend {s : ResolverThread} {key : Text} {re : RouteEntry} {todo resolved : List Text}
    (hp : Placed inet s) (h : Sound inet s) (hplace : s.place = .resend key re todo resolved) :
    Sound inet (s.look vmId inet) := by
  obtain ⟨hlookup, hnodup, htodo⟩ := hp.at_place hplace
  have hknown : Known inet s.ft re.gateway := h.assured_at hplace
  have hsame := @sendRouteToHw_sameRoutes inet vmId s.ft .add re
  have hwaits : Waits inet s key := by
    refine Or.inr ⟨htodo key List.mem_cons_self, ?_⟩
    rw [hplace]
    intro hin
    exact (List.nodup_append.mp hnodup).2.2 key hin key List.mem_cons_self rfl
  rw [look_resend_eq hplace]
  refine ⟨trivial, stands_sent hp h hlookup hwaits hknown rfl rfl ?_ (by rw [hplace]; rfl) rfl⟩
  intro k
  unfold Waits
  rw [hplace]
  unfold noting
  dsimp only
  rw [hsame.unresolved]
  simp only [Place.held, Place.swept, List.mem_append, List.mem_singleton, not_or, reduceCtorEq,
    false_or, and_assoc]

theorem look_drain {s : ResolverThread} (hp : Placed inet s) (h : Sound inet s)
    (hproper : Proper inet s .look) (hplace : s.place = .drain) : Sound inet (s.look vmId inet) := by
  cases hpending : s.ft.pendingRoutes with
  | nil =>
    rw [look_drain_nil hplace hpending]
    exact h.move hplace rfl rfl rfl trivial
  | cons pr rest =>
    rw [look_drain_cons hplace hpending]
    have hpopped : Sound inet { s with ft := { s.ft with pendingRoutes := rest } } :=
      h.frame rfl rfl rfl rfl fun _ ha => ha
    obtain ⟨type, re⟩ := pr
    cases type with
    | add => exact take_add hpopped hplace
    | delete =>
      have hgateway := hproper hplace ⟨.delete, re⟩ (by rw [hpending]; rfl) rfl
      exact take_delete (hp.frame rfl rfl (hp.place.congr rfl rfl rfl)) hpopped hplace hgateway
    | controller | addGroup | deleteGroup | unknown => exact hpopped

theorem step_sound {s : ResolverThread} {a : Act} (hproper : Proper inet s a) (hp : Placed inet s)
    (h : Sound inet s) : Sound inet (step vmId inet s a) := by
  cases a with
  | route pr => exact h.frame rfl rfl rfl rfl fun _ ha => ha
  | host hentry =>
    have hsame := @updateHostTable_sameRoutes inet vmId s.ft hentry
    exact h.frame hsame.table hsame.unresolved rfl (deeds_host s hentry)
      fun _ => updateHostTable_known hproper
  | look =>
    cases hplace : s.place with
    | drain => exact look_drain hp h hproper hplace
    | check re => exact look_check h hplace
    | send mod re =>
      cases mod with
      | add => exact look_send_add hp h hplace
      | delete => exact look_send_delete hp h hplace
      | controller | addGroup | deleteGroup | unknown => exact (hp.at_place hplace).elim
    | sweep todo resolved =>
      cases todo with
      | nil => exact look_sweep_end hp h hplace
      | cons key todo => exact look_sweep_next hp h hplace
    | resend key re todo resolved => exact look_resend hp h hplace

theorem run_sound {acts : List Act} (h : Run.Along (step vmId inet) (Proper inet) {} acts) :
    Placed inet (run vmId inet acts) ∧ Sound inet (run vmId inet acts) := by
  refine @Run.invariant _ _ (step vmId inet) (Proper inet) (fun s => Placed inet s ∧ Sound inet s)
    ?_ _ acts ⟨placed_init, trivial, ?_⟩ h
  · rintro s a hproper ⟨hp, hs⟩
    exact ⟨step_placed a hp, step_sound hproper hp hs⟩
  · intro k
    exact ⟨fun hin => absurd hin (by simp), by simp, fun _ ho => (nomatch ho), fun _ _ => Or.inl rfl⟩

/-! ## The log -/

theorem noting_keeps {s : ResolverThread} {note : HwCall → Note} {f : FlowTable → FlowTable}
    {cs : List HwCall} (h : s.log.filterMap Note.call = s.ft.calls)
    (hcalls : (f s.ft).calls = s.ft.calls ++ cs) (hnote : ∀ c, (note c).call = some c) :
    (s.noting note f).log.filterMap Note.call = (s.noting note f).ft.calls := by
  have hmap : (cs.map note).filterMap Note.call = cs := by
    rw [List.filterMap_map]
    exact (List.filterMap_congr fun c _ => hnote c).trans List.filterMap_some
  rw [noting_log hcalls note, List.filterMap_append, h, hmap]
  exact hcalls.symm

theorem take_keeps {s : ResolverThread} (h : s.log.filterMap Note.call = s.ft.calls) (pr : PendingRoute) :
    (take inet s pr).log.filterMap Note.call = (take inet s pr).ft.calls := by
  unfold take
  dsimp only
  split
  · split
    · exact h
    · rw [List.filterMap_append, h]
      exact List.append_nil _
  · split
    · rw [List.filterMap_append, h]
      exact List.append_nil _
    · exact h
  · exact h

theorem look_keeps {s : ResolverThread} (h : s.log.filterMap Note.call = s.ft.calls) :
    (s.look vmId inet).log.filterMap Note.call = (s.look vmId inet).ft.calls := by
  have hsend : ∀ mod re, (s.noting .route (·.sendRouteToHw vmId inet mod re)).log.filterMap Note.call =
      (s.ft.sendRouteToHw vmId inet mod re).calls := by
    intro mod re
    by_cases hknown : Known inet s.ft re.gateway
    · have hcalls := @handOver_calls vmId s.ft
      rw [sendRouteToHw_known hknown]
      rw [noting_send_known hknown, List.filterMap_append, h, hcalls]
      rfl
    · rw [noting_send_unknown hknown, sendRouteToHw_unknown (not_not.mp hknown)]
      exact h
  have hopen : ∀ key, (s.ft.openRoute key).calls = s.ft.calls := by
    intro key
    unfold openRoute
    split <;> rfl
  unfold look
  split
  · split
    · exact h
    · apply take_keeps
      exact h
  · split
    · exact h
    · exact h
  · exact hsend _ _
  · exact h
  · dsimp only
    split
    · exact h.trans (hopen _).symm
    · exact h.trans (hopen _).symm
  · exact hsend _ _

theorem run_calls (vmId : Nat) (inet : Inet) (acts : List Act) :
    (run vmId inet acts).log.filterMap Note.call = (run vmId inet acts).ft.calls := by
  refine @Run.invariant _ _ (step vmId inet) (fun _ _ => True)
    (fun s => s.log.filterMap Note.call = s.ft.calls)
    ?_ _ acts rfl (Run.along_true _ _ _)
  intro s a _ h
  cases a with
  | route pr => exact h
  | host hentry => exact noting_keeps h (handOver_calls _ _) fun _ => rfl
  | look => exact look_keeps h

/-! ## Exactly once -/

/-- Each route in the table was sent once since it went in, unless it waits. A route that went out is not sent
until it goes in again, and is taken back once if it was sent. -/
structure SentOnce (inet : Inet) (s : ResolverThread) : Prop where
  unresolved : ∀ k ∈ s.ft.unresolvedRoutes, k ∈ s.ft.routeTable
  once : ∀ k ∈ s.ft.routeTable,
    (since k (s.deeds inet)).count (.added k) = if k ∈ s.ft.unresolvedRoutes then 0 else 1
  not_after : ∀ k before after, s.deeds inet = before ++ .erased k :: after → .inserted k ∉ after →
    .added k ∉ after
  taken_back : ∀ k before after, s.deeds inet = before ++ .erased k :: after → .added k ∈ since k before →
    (untilNext k after).count (.removed k) = 1

/-- The log is that of the table and of the calls. -/
structure Logged (inet : Inet) (s : ResolverThread) : Prop where
  table : ∀ k, k ∈ s.ft.routeTable ↔ Run.Since (· = .inserted k) (· = .erased k) (s.deeds inet)
  calls : s.log.filterMap Note.call = s.ft.calls

theorem Stands.stage_eq {s : ResolverThread} {k : Text} (h : Stands inet s k) (hdrain : s.place = .drain) :
    ∃ st, stage k (s.deeds inet) = some st ∧ st ≠ .leaving ∧ (k ∈ s.ft.routeTable ↔
      st = .waiting ∨ st = .sent) ∧ (k ∈ s.ft.routeTable →
      st.sends = some (if k ∈ s.ft.unresolvedRoutes then 0 else 1)) := by
  have hwaits : Waits inet s k ↔ k ∈ s.ft.unresolvedRoutes := by
    unfold Waits
    rw [hdrain]
    simp [Place.held, Place.swept]
  by_cases hk : k ∈ s.ft.routeTable
  · by_cases hw : k ∈ s.ft.unresolvedRoutes
    · refine ⟨.waiting, h.waiting hk (hwaits.mpr hw), nofun, iff_of_true hk (Or.inl rfl), ?_⟩
      intro _
      rw [if_pos hw]
      rfl
    · obtain ⟨e, he⟩ := exists_lookup hk
      refine ⟨.sent, (h.sent e he (mt hwaits.mp hw)).1, nofun, iff_of_true hk (Or.inr rfl), ?_⟩
      intro _
      rw [if_neg hw]
      rfl
  · rcases h.gone hk (by rw [hdrain]; exact nofun) with hst | hst
    · exact ⟨.absent, hst, nofun, iff_of_false hk (by simp), fun hin => absurd hin hk⟩
    · exact ⟨.released, hst, nofun, iff_of_false hk (by simp), fun hin => absurd hin hk⟩

theorem routes_sent_once (vmId : Nat) (inet : Inet) (acts : List Act)
    (hproper : Run.Along (step vmId inet) (Proper inet) {} acts)
    (hdrain : (run vmId inet acts).place = .drain) :
    SentOnce inet (run vmId inet acts) ∧ Logged inet (run vmId inet acts) := by
  obtain ⟨hp, hs⟩ := run_sound hproper
  have hstage := fun k => (hs.stands k).stage_eq hdrain
  refine ⟨⟨hp.listed.mem_table, ?_, ?_, ?_⟩, ?_, run_calls vmId inet acts⟩
  · intro k hk
    obtain ⟨st, hst, -, -, hsends⟩ := hstage k
    exact count_since k hst (hsends hk)
  · intro k before after heq hno
    obtain ⟨st, hst, -, -, -⟩ := hstage k
    rw [heq] at hst
    exact not_added_after_erased k hst hno
  · intro k before after heq hsent
    obtain ⟨st, hst, hdone, -, -⟩ := hstage k
    rw [heq] at hst
    exact removed_after_erased k hst hdone hsent
  · intro k
    obtain ⟨st, hst, -, hmem, -⟩ := hstage k
    rw [hmem, present_iff k hst]

def viaAddress : IPAddress := ⟨.ipv4, [192, 168, 0, 1], rfl⟩

/-- The gateway is heard of while the resolver sweeps, and the route goes later. -/
def lateGateway : List Act :=
  let re : RouteEntry := ⟨(prefixVia 1).dst, viaAddress, .ofPrefixLen .ipv4 16, FlowTable.eth1⟩
  [.route ⟨.add, re⟩, .look, .look, .look, .host ⟨viaAddress, 0x020000000002, FlowTable.eth1⟩,
    .look, .look, .look, .route ⟨.delete, re⟩, .look, .look]

def lateKey : Text := "10.1.0.0/255.255.0.0 via 255.255.0.0".toList

theorem routes_sent_once_lateGateway :
    (run 1 plainInet lateGateway).deeds plainInet =
        [.inserted lateKey, .added lateKey, .erased lateKey, .removed lateKey] ∧
      SentOnce plainInet (run 1 plainInet lateGateway) :=
  ⟨by decide +kernel, (routes_sent_once 1 plainInet lateGateway (by decide +kernel) (by decide +kernel)).1⟩

end ResolverThread

end RouteFlow
