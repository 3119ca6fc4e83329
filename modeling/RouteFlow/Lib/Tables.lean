import RouteFlow.Lib.Rules

/-!
# Tables of rules

A rule replaces the one that has its key, and may send a packet on to another table.
-/

namespace RouteFlow.Rules

variable {ρ κ : Type}

/-! ## Installing -/

section Install

variable [DecidableEq κ] (key : ρ → κ)

/-- A rule replaces the one under its key. -/
def install (rules : List ρ) (r : ρ) : List ρ := rules.filter (fun q => key q ≠ key r) ++ [r]

/-- The rules that are left of those that were sent, oldest first. -/
def installed (sent : List ρ) : List ρ := sent.foldl (install key) []

variable {key} {q r : ρ}

theorem mem_installed_snoc (sent : List ρ) :
    q ∈ installed key (sent ++ [r]) ↔ (q ∈ installed key sent ∧ key q ≠ key r) ∨ q = r := by
  simp [installed, List.foldl_append, install]

theorem sent_of_installed {sent : List ρ} (h : q ∈ installed key sent) : q ∈ sent := by
  induction sent using List.reverseRecOn with
  | nil => exact h
  | append_singleton sent r ih =>
    rcases (mem_installed_snoc sent).mp h with ⟨hq, -⟩ | rfl
    · exact List.mem_append_left _ (ih hq)
    · exact List.mem_append_right _ List.mem_cons_self

variable (key) in
theorem installed_later (earlier : List ρ) {later : List ρ} (h : r ∈ later) :
    ∃ q ∈ installed key (earlier ++ later), q ∈ later ∧ key q = key r := by
  induction later using List.reverseRecOn with
  | nil => exact absurd h List.not_mem_nil
  | append_singleton later x ih =>
    rw [← List.append_assoc]
    by_cases hx : key r = key x
    · exact ⟨x, (mem_installed_snoc _).mpr (Or.inr rfl), by simp, hx.symm⟩
    · rcases List.mem_append.mp h with hr | hr
      · obtain ⟨q, hq, hlater, hkey⟩ := ih hr
        exact ⟨q, (mem_installed_snoc _).mpr (Or.inl ⟨hq, by rw [hkey]; exact hx⟩), by simp [hlater], hkey⟩
      · exact absurd (by rw [List.mem_singleton.mp hr]) hx

variable (key) in
theorem exists_installed {sent : List ρ} (h : r ∈ sent) : ∃ q ∈ installed key sent, key q = key r := by
  obtain ⟨q, hq, -, hkey⟩ := installed_later key [] h
  exact ⟨q, hq, hkey⟩

theorem installed_unique {sent : List ρ} (hq : q ∈ installed key sent) (hr : r ∈ installed key sent)
    (h : key q = key r) : q = r := by
  induction sent using List.reverseRecOn with
  | nil => exact absurd hq List.not_mem_nil
  | append_singleton sent x ih =>
    rcases (mem_installed_snoc sent).mp hq with ⟨hq, hqx⟩ | rfl
    · rcases (mem_installed_snoc sent).mp hr with ⟨hr, -⟩ | rfl
      · exact ih hq hr
      · exact absurd h hqx
    · rcases (mem_installed_snoc sent).mp hr with ⟨-, hrx⟩ | rfl
      · exact absurd h.symm hrx
      · rfl

end Install

/-! ## Updating -/

section Update

variable [DecidableEq κ] (key : ρ → κ) (puts : ρ → Bool) (removes : ρ → ρ → Bool)

/-- A message puts itself in as a rule, or removes rules. -/
def update (rules : List ρ) (m : ρ) : List ρ :=
  if puts m then install key rules m else rules.filter fun r => !removes m r

/-- The rules after the messages, oldest first, when there were `old` ones before. -/
def updated (old ms : List ρ) : List ρ := ms.foldl (update key puts removes) old

variable {key puts removes} {old ms : List ρ} {m q r : ρ}

theorem updated_snoc : updated key puts removes old (ms ++ [m]) =
    update key puts removes (updated key puts removes old ms) m := by
  simp [updated, List.foldl_append]

theorem mem_update (rules : List ρ) : r ∈ update key puts removes rules m ↔
    (r ∈ rules ∧ if puts m then key r ≠ key m else removes m r = false) ∨ (puts m = true ∧ r = m) := by
  unfold update
  cases puts m <;> simp [install]

theorem mem_updated (h : r ∈ updated key puts removes old ms) : r ∈ old ∨ (r ∈ ms ∧ puts r = true) := by
  induction ms using List.reverseRecOn with
  | nil => exact Or.inl h
  | append_singleton ms m ih =>
    rw [updated_snoc, mem_update] at h
    rcases h with ⟨hr, -⟩ | ⟨hm, rfl⟩
    · exact (ih hr).imp id fun ⟨hms, hputs⟩ => ⟨List.mem_append_left _ hms, hputs⟩
    · exact Or.inr ⟨List.mem_append_right _ List.mem_cons_self, hm⟩

theorem updated_wipe {before after : List ρ} (hputs : puts m = false) (hall : ∀ r, removes m r = true) :
    updated key puts removes old (before ++ m :: after) = updated key puts removes [] after := by
  have hwipe : ∀ rules, update key puts removes rules m = [] := by
    intro rules
    simp [update, hputs, hall]
  simp only [updated, List.foldl_append, List.foldl_cons, hwipe]

theorem exists_updated (hr : r ∈ ms) (hputs : puts r = true) (hkeep : ∀ m ∈ ms, puts m = false → ∀ q ∈ ms,
    key q = key r → removes m q = false) : ∃ q ∈ updated key puts removes old ms,
      q ∈ ms ∧ key q = key r := by
  induction ms using List.reverseRecOn with
  | nil => exact absurd hr List.not_mem_nil
  | append_singleton ms m ih =>
    have hlast : m ∈ ms ++ [m] := List.mem_append_right _ List.mem_cons_self
    by_cases hm : puts m = true ∧ key m = key r
    · exact ⟨m, by rw [updated_snoc, mem_update]; exact Or.inr ⟨hm.1, rfl⟩, hlast, hm.2⟩
    · have hold : r ∈ ms := by
        refine (List.mem_append.mp hr).resolve_right fun hrm => hm ?_
        rw [← List.mem_singleton.mp hrm]
        exact ⟨hputs, rfl⟩
      obtain ⟨q, hq, hqms, hkey⟩ := ih hold fun m hm hp q hq =>
        hkeep m (List.mem_append_left _ hm) hp q (List.mem_append_left _ hq)
      refine ⟨q, ?_, List.mem_append_left _ hqms, hkey⟩
      rw [updated_snoc, mem_update]
      refine Or.inl ⟨hq, ?_⟩
      cases hp : puts m with
      | true =>
        rw [if_pos rfl, hkey]
        exact fun he => hm ⟨hp, he.symm⟩
      | false =>
        rw [if_neg Bool.false_ne_true]
        exact hkeep m hlast hp q (List.mem_append_left _ hqms) hkey

end Update

/-! ## From table to table -/

theorem exists_best {applies : ρ → Prop} (prio : ρ → Nat) {rules : List ρ} {r : ρ} (hr : r ∈ rules)
    (h : applies r) :
    ∃ q, Best applies prio rules q := by
  induction rules generalizing r with
  | nil => exact absurd hr List.not_mem_nil
  | cons x rules ih =>
    by_cases hrest : ∃ y ∈ rules, applies y
    · obtain ⟨y, hy, happ⟩ := hrest
      obtain ⟨q, hq, hqapp, hmax⟩ := ih hy happ
      by_cases hx : applies x ∧ prio q < prio x
      · refine ⟨x, List.mem_cons_self, hx.1, fun z hz hzapp => ?_⟩
        rcases List.mem_cons.mp hz with rfl | hz
        · exact le_rfl
        · exact (hmax z hz hzapp).trans hx.2.le
      · refine ⟨q, List.mem_cons_of_mem x hq, hqapp, fun z hz hzapp => ?_⟩
        rcases List.mem_cons.mp hz with rfl | hz
        · exact not_lt.mp fun hlt => hx ⟨hzapp, hlt⟩
        · exact hmax z hz hzapp
    · have hno : ∀ z ∈ rules, ¬ applies z := fun z hz hzapp => hrest ⟨z, hz, hzapp⟩
      rcases List.mem_cons.mp hr with rfl | hr
      · refine ⟨r, List.mem_cons_self, h, fun z hz hzapp => ?_⟩
        rcases List.mem_cons.mp hz with rfl | hz
        · exact le_rfl
        · exact absurd hzapp (hno z hz)
      · exact absurd h (hno r hr)

section Leads

variable (applies : ρ → Prop) (prio : ρ → Nat) (table : ρ → Nat) (onward : ρ → Option Nat)
  (rules : List ρ)

def BestIn (t : Nat) (r : ρ) : Prop := Best (fun q => table q = t ∧ applies q) prio rules r

/-- Whichever of the best rules are taken, from table `t` the packet comes to a rule that meets `P`. -/
inductive Leads (P : ρ → Prop) : Nat → Prop
  | step {t : Nat} (some_best : ∃ r, BestIn applies prio table rules t r)
      (goes_on : ∀ r, BestIn applies prio table rules t r → ¬ P r → (onward r).isSome)
      (leads : ∀ r t', BestIn applies prio table rules t r → ¬ P r → onward r = some t' → Leads P t') :
      Leads P t

variable {applies prio table onward rules} {P : ρ → Prop} {t t' : Nat} {q r : ρ}

theorem exists_bestIn (hr : r ∈ rules) (ht : table r = t) (h : applies r) :
    ∃ q, BestIn applies prio table rules t q := exists_best prio hr ⟨ht, h⟩

theorem BestIn.le (hq : BestIn applies prio table rules t q) (hr : r ∈ rules) (ht : table r = t)
    (h : applies r) :
    prio r ≤ prio q := hq.2.2 r hr ⟨ht, h⟩

theorem Leads.here (hsome : ∃ r, BestIn applies prio table rules t r)
    (hP : ∀ r, BestIn applies prio table rules t r → P r) : Leads applies prio table onward rules P t :=
  .step hsome (fun r hr hno => absurd (hP r hr) hno) fun r _ hr hno => absurd (hP r hr) hno

theorem Leads.goto (hsome : ∃ r, BestIn applies prio table rules t r)
    (hnext : ∀ r, BestIn applies prio table rules t r → onward r = some t')
    (h : Leads applies prio table onward rules P t') : Leads applies prio table onward rules P t := by
  refine .step hsome (fun r hr _ => by rw [hnext r hr]; rfl) fun r u hr _ hu => ?_
  rw [hnext r hr] at hu
  rwa [← Option.some.inj hu]

theorem Leads.after (h : Leads applies prio table onward rules P t)
    (hnext : ∀ r, BestIn applies prio table rules t r → ¬ P r ∧ onward r = some t') :
    Leads applies prio table onward rules P t' := by
  obtain ⟨⟨r, hr⟩, -, hleads⟩ := h
  exact hleads r t' hr (hnext r hr).1 (hnext r hr).2

theorem not_leads (hr : BestIn applies prio table rules t r) (hP : ¬ P r) (hnext : onward r = none) :
    ¬ Leads applies prio table onward rules P t := by
  rintro ⟨-, hgoes, -⟩
  have := hgoes r hr hP
  rw [hnext] at this
  cases this

end Leads

end RouteFlow.Rules
