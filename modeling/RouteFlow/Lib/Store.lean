import Mathlib.Data.List.Nodup
import Mathlib.Data.List.Perm.Basic
import Mathlib.Data.Set.Basic

/-!
# Row stores

A store keeps rows under ids that it hands out itself. A reader gets the rows in
some order that the store does not promise, so every query takes an `Order`.
-/

namespace RouteFlow.Store

/-- A stored value with the id of its row. -/
structure Row (ρ : Type) where
  id : Nat
  val : ρ
deriving DecidableEq

/-- The order in which a store hands out its rows. Any permutation may happen. -/
structure Order where
  app : {α : Type} → List α → List α
  perm : ∀ {α : Type} (l : List α), (app l).Perm l

def Order.insertion : Order := ⟨fun l => l, fun l => List.Perm.refl l⟩

/-- Rows stay in their places when they get new values, as in a dict. -/
def Order.ByKeys (o : Order) : Prop := ∀ (ρ : Type) (l : List (Row ρ)) (f : Row ρ → ρ),
  o.app (l.map fun r => (⟨r.id, f r⟩ : Row ρ)) = (o.app l).map fun r => ⟨r.id, f r⟩

theorem Order.insertion_byKeys : Order.insertion.ByKeys := fun _ _ _ => rfl

def Order.rotate (n : Nat) : Order :=
  ⟨fun l => l.drop n ++ l.take n, fun l => by
    have h : (l.drop n ++ l.take n).Perm (l.take n ++ l.drop n) := List.perm_append_comm
    rwa [List.take_append_drop] at h⟩

/-- The rows in insertion order. No two rows share an id, and no id is above the counter. -/
structure Table (ρ : Type) where
  nextId : Nat
  rows : List (Row ρ)
  ids_le : ∀ r ∈ rows, r.id ≤ nextId
  ids_nodup : (rows.map Row.id).Nodup

namespace Table

variable {ρ : Type}

def empty (first : Nat) : Table ρ := ⟨first, [], by simp, by simp⟩

def add (t : Table ρ) (v : ρ) : Table ρ where
  nextId := t.nextId + 1
  rows := t.rows ++ [⟨t.nextId + 1, v⟩]
  ids_le := by
    intro r hr
    rcases List.mem_append.mp hr with hr | hr
    · exact Nat.le_succ_of_le (t.ids_le r hr)
    · obtain rfl := List.mem_singleton.mp hr
      exact Nat.le_refl _
  ids_nodup := by
    rw [List.map_append, List.nodup_append]
    refine ⟨t.ids_nodup, by simp, ?_⟩
    intro i hi j hj hij
    obtain ⟨r, hr, rfl⟩ := List.mem_map.mp hi
    have := t.ids_le r hr
    simp at hj
    omega

/-- The row with id `i` gets a new value. -/
def put (t : Table ρ) (i : Nat) (v : ρ) : Table ρ where
  nextId := t.nextId
  rows := t.rows.map fun r => if r.id = i then ⟨r.id, v⟩ else r
  ids_le := by
    intro r hr
    obtain ⟨q, hq, rfl⟩ := List.mem_map.mp hr
    have := t.ids_le q hq
    split <;> exact this
  ids_nodup := by
    rw [List.map_map]
    have : (Row.id ∘ fun r : Row ρ => if r.id = i then ⟨r.id, v⟩ else r) = Row.id := by
      funext r; simp only [Function.comp_apply]; split <;> rfl
    rw [this]
    exact t.ids_nodup

/-- The rows that are selected, in the order of the query. -/
def find (o : Order) (t : Table ρ) (p : ρ → Bool) : List (Row ρ) :=
  (o.app t.rows).filter fun r => p r.val

def first (o : Order) (t : Table ρ) (p : ρ → Bool) : Option (Row ρ) := (t.find o p).head?

/-- Writes back every row of a snapshot, each with its value changed by `f`. -/
def putAll (f : ρ → ρ) (snapshot : List (Row ρ)) (t : Table ρ) : Table ρ :=
  snapshot.foldl (fun t r => t.put r.id (f r.val)) t

/-! ## Membership -/

theorem empty_rows (first : Nat) : (empty first : Table ρ).rows = [] := rfl

@[simp] theorem not_mem_empty (first : Nat) (r : Row ρ) : r ∉ (empty first : Table ρ).rows := by
  simp [empty_rows]

@[simp] theorem mem_add (t : Table ρ) (v : ρ) (r : Row ρ) :
    r ∈ (t.add v).rows ↔ r ∈ t.rows ∨ r = ⟨t.nextId + 1, v⟩ := by
  simp [add]

theorem eq_of_id {t : Table ρ} {r q : Row ρ} (hr : r ∈ t.rows) (hq : q ∈ t.rows)
    (h : r.id = q.id) : r = q := List.inj_on_of_nodup_map t.ids_nodup hr hq h

theorem mem_put {t : Table ρ} {q : Row ρ} (hq : q ∈ t.rows) (v : ρ) (r : Row ρ) :
    r ∈ (t.put q.id v).rows ↔ r = ⟨q.id, v⟩ ∨ (r ∈ t.rows ∧ r ≠ q) := by
  simp only [put, List.mem_map]
  constructor
  · rintro ⟨x, hx, rfl⟩
    split
    · rename_i h; left; rw [h]
    · rename_i h; right; exact ⟨hx, fun e => h (by rw [e])⟩
  · rintro (rfl | ⟨hr, hne⟩)
    · exact ⟨q, hq, by simp⟩
    · exact ⟨r, hr, if_neg fun h => hne (eq_of_id hr hq h)⟩

theorem put_rows_split {t : Table ρ} {l₁ l₂ : List (Row ρ)} {q : Row ρ}
    (h : t.rows = l₁ ++ q :: l₂) (v : ρ) : (t.put q.id v).rows = l₁ ++ ⟨q.id, v⟩ :: l₂ := by
  have hid := t.ids_nodup
  rw [h, List.map_append, List.map_cons, List.nodup_append, List.nodup_cons] at hid
  obtain ⟨_, ⟨hq2, _⟩, hd⟩ := hid
  have keep : ∀ l : List (Row ρ), (∀ r ∈ l, r.id ≠ q.id) →
      l.map (fun r => if r.id = q.id then (⟨r.id, v⟩ : Row ρ) else r) = l := by
    intro l hl
    conv_rhs => rw [← List.map_id l]
    apply List.map_congr_left
    intro r hr
    simp [hl r hr]
  simp only [put, h, List.map_append, List.map_cons, if_true]
  rw [keep l₁ fun r hr => hd _ (List.mem_map_of_mem hr) _ List.mem_cons_self,
    keep l₂ fun r hr he => hq2 (he ▸ List.mem_map_of_mem hr)]

/-! ## Queries -/

@[simp] theorem mem_find (o : Order) (t : Table ρ) (p : ρ → Bool) (r : Row ρ) :
    r ∈ t.find o p ↔ r ∈ t.rows ∧ p r.val = true := by
  simp [find, (o.perm t.rows).mem_iff]

theorem first_some {o : Order} {t : Table ρ} {p : ρ → Bool} {r : Row ρ}
    (h : t.first o p = some r) : r ∈ t.rows ∧ p r.val = true :=
  (mem_find o t p r).mp (List.mem_of_mem_head? h)

theorem first_none {o : Order} {t : Table ρ} {p : ρ → Bool} :
    t.first o p = none ↔ ∀ r ∈ t.rows, p r.val = false := by
  rw [first, List.head?_eq_none_iff, List.eq_nil_iff_forall_not_mem]
  simp

theorem first_isSome_of_mem {o : Order} {t : Table ρ} {p : ρ → Bool} {r : Row ρ}
    (hr : r ∈ t.rows) (hp : p r.val = true) : ∃ q, t.first o p = some q := by
  cases h : t.first o p with
  | some q => exact ⟨q, rfl⟩
  | none => simp [first_none.mp h r hr] at hp

theorem find_nodup (o : Order) (t : Table ρ) (p : ρ → Bool) : (t.find o p).Nodup := by
  have h : t.rows.Nodup := List.Nodup.of_map _ t.ids_nodup
  exact ((o.perm t.rows).nodup_iff.mpr h).filter _

/-! ## Loops -/

/-- The value of each row after the rows with a test `p` are changed by `f`. -/
def changeWhere (p : ρ → Bool) (f : ρ → ρ) (r : Row ρ) : Row ρ :=
  if p r.val then ⟨r.id, f r.val⟩ else r

theorem putAll_rows (f : ρ → ρ) (snapshot : List (Row ρ)) (t : Table ρ)
    (hs : ∀ r ∈ snapshot, r ∈ t.rows) (hn : snapshot.Nodup) :
    (putAll f snapshot t).rows =
      t.rows.map fun r => if r.id ∈ snapshot.map Row.id then ⟨r.id, f r.val⟩ else r := by
  induction snapshot generalizing t with
  | nil => simp [putAll]
  | cons q rest ih =>
    have hq : q ∈ t.rows := hs q List.mem_cons_self
    rw [List.nodup_cons] at hn
    have hrest : ∀ r ∈ rest, r ∈ (t.put q.id (f q.val)).rows := by
      intro r hr
      rw [mem_put hq]
      exact Or.inr ⟨hs r (List.mem_cons_of_mem _ hr), fun e => hn.1 (e ▸ hr)⟩
    have := ih (t.put q.id (f q.val)) hrest hn.2
    simp only [putAll, List.foldl_cons] at this ⊢
    rw [this]
    simp only [put, List.map_map]
    apply List.map_congr_left
    intro r hr
    have hid : r.id ∈ rest.map Row.id → r.id ≠ q.id := by
      rintro hm he
      obtain ⟨x, hx, hxi⟩ := List.mem_map.mp hm
      have := eq_of_id (hs x (List.mem_cons_of_mem _ hx)) hq (hxi.trans he)
      exact hn.1 (this ▸ hx)
    simp only [Function.comp_apply, List.map_cons, List.mem_cons]
    by_cases he : r.id = q.id
    · have hrq : r = q := eq_of_id hr hq he
      have hno : q.id ∉ rest.map Row.id := fun hm => hid (by rw [he]; exact hm) he
      simp [hrq, hno]
    · simp [he]

theorem putAll_find (o : Order) (f : ρ → ρ) (p : ρ → Bool) (t : Table ρ) :
    (putAll f (t.find o p) t).rows = t.rows.map (changeWhere p f) := by
  rw [putAll_rows f _ t (fun r hr => ((mem_find o t p r).mp hr).1) (find_nodup o t p)]
  apply List.map_congr_left
  intro r hr
  have : r.id ∈ (t.find o p).map Row.id ↔ p r.val = true := by
    constructor
    · intro hm
      obtain ⟨x, hx, hxi⟩ := List.mem_map.mp hm
      rw [mem_find] at hx
      rw [← eq_of_id hx.1 hr hxi]; exact hx.2
    · intro hp
      exact List.mem_map_of_mem ((mem_find o t p r).mpr ⟨hr, hp⟩)
  simp only [this, changeWhere]

/-- One round of a loop that looks a row up again by its key before it changes it. -/
def sweepStep {κ : Type} [DecidableEq κ] (o : Order) (key : ρ → κ) (f : ρ → ρ) (t : Table ρ) (k : κ) :
    Table ρ :=
  match t.first o (fun v => decide (key v = k)) with
  | some r => t.put r.id (f r.val)
  | none => t

theorem sweep_split {κ : Type} [DecidableEq κ] (o : Order) (key : ρ → κ) (sel : κ → Bool) (f : ρ → ρ)
    (hf : ∀ v, sel (key v) = true → sel (key (f v)) = false) {k : κ} {rest : List κ} {t : Table ρ}
    (hks : (k :: rest).Perm ((t.rows.filter fun r => sel (key r.val)).map fun r => key r.val)) :
    ∃ q l₁ l₂, t.first o (fun v => decide (key v = k)) = some q ∧ t.rows = l₁ ++ q :: l₂ ∧
      sel (key q.val) = true ∧ rest.Perm (((t.put q.id (f q.val)).rows.filter fun r => sel (key r.val)).map
        fun r => key r.val) := by
  have hk : k ∈ (t.rows.filter fun r => sel (key r.val)).map fun r => key r.val :=
    hks.subset List.mem_cons_self
  obtain ⟨x, hx, hxk⟩ := List.mem_map.mp hk
  rw [List.mem_filter] at hx
  obtain ⟨q, hq⟩ := first_isSome_of_mem (o := o) (p := fun v => decide (key v = k)) hx.1 (by simpa using hxk)
  obtain ⟨hqm, hqk⟩ := first_some hq
  have hqk : key q.val = k := by simpa using hqk
  have hselk : sel k = true := by rw [← hxk]; exact hx.2
  have hsel : sel (key q.val) = true := by rw [hqk]; exact hselk
  have hnot := hf q.val hsel
  obtain ⟨l₁, l₂, hl⟩ := List.append_of_mem hqm
  refine ⟨q, l₁, l₂, hq, hl, hsel, ?_⟩
  rw [hl] at hks
  simp only [List.filter_append, List.filter_cons, hqk, hselk, if_true, List.map_append, List.map_cons] at hks
  rw [put_rows_split hl (f q.val)]
  simp only [List.filter_append, List.filter_cons, hnot, Bool.false_eq_true, if_false, List.map_append]
  exact (List.perm_cons k).mp (hks.trans List.perm_middle)

/-- A loop over the keys of the selected rows reaches each of them exactly once, also when several
rows share a key, as long as a changed row is no longer selected. -/
theorem sweep_rows {κ : Type} [DecidableEq κ] (o : Order) (key : ρ → κ) (sel : κ → Bool) (f : ρ → ρ)
    (hf : ∀ v, sel (key v) = true → sel (key (f v)) = false) (ks : List κ) (t : Table ρ)
    (hks : ks.Perm ((t.rows.filter fun r => sel (key r.val)).map fun r => key r.val)) :
    (ks.foldl (sweepStep o key f) t).rows = t.rows.map (changeWhere (fun v => sel (key v)) f) := by
  induction ks generalizing t with
  | nil =>
    have hnil := List.map_eq_nil_iff.mp (List.nil_perm.mp hks)
    rw [List.foldl_nil]
    conv_lhs => rw [← List.map_id t.rows]
    apply List.map_congr_left
    intro r hr
    have := (List.filter_eq_nil_iff.mp hnil) r hr
    simp only [id_eq, changeWhere]
    rw [if_neg this]
  | cons k rest ih =>
    obtain ⟨q, l₁, l₂, hq, hl, hsel, hperm⟩ := sweep_split o key sel f hf hks
    have hnot := hf q.val hsel
    have hput := put_rows_split hl (f q.val)
    have hstep : sweepStep o key f t k = t.put q.id (f q.val) := by simp [sweepStep, hq]
    rw [List.foldl_cons, hstep]
    rw [ih _ hperm, hput, hl]
    have hq' : changeWhere (fun v => sel (key v)) f ⟨q.id, f q.val⟩ = ⟨q.id, f q.val⟩ := by
      simp [changeWhere, hnot]
    have hq'' : changeWhere (fun v => sel (key v)) f q = ⟨q.id, f q.val⟩ := by
      simp [changeWhere, hsel]
    simp only [List.map_append, List.map_cons, hq', hq'']

/-- The rows that a sweep changes, as they were before. -/
def sweepVisits {κ : Type} [DecidableEq κ] (o : Order) (key : ρ → κ) (f : ρ → ρ) : Table ρ →
    List κ → List (Row ρ)
  | _, [] => []
  | t, k :: rest =>
    match t.first o (fun v => decide (key v = k)) with
    | some r => r :: sweepVisits o key f (t.put r.id (f r.val)) rest
    | none => sweepVisits o key f t rest

theorem sweepVisits_perm {κ : Type} [DecidableEq κ] (o : Order) (key : ρ → κ)
    (sel : κ → Bool) (f : ρ → ρ) (hf : ∀ v, sel (key v) = true → sel (key (f v)) = false)
    (ks : List κ) (t : Table ρ) (hks :
      ks.Perm ((t.rows.filter fun r => sel (key r.val)).map fun r => key r.val)) :
    (sweepVisits o key f t ks).Perm (t.rows.filter fun r => sel (key r.val)) := by
  induction ks generalizing t with
  | nil =>
    rw [List.map_eq_nil_iff.mp (List.nil_perm.mp hks)]
    exact List.Perm.nil
  | cons k rest ih =>
    obtain ⟨q, l₁, l₂, hq, hl, hsel, hperm⟩ := sweep_split o key sel f hf hks
    have hput := put_rows_split hl (f q.val)
    simp only [sweepVisits, hq]
    refine ((ih _ hperm).cons q).trans ?_
    rw [hput, hl]
    simp only [List.filter_append, List.filter_cons, hsel, hf q.val hsel, if_true,
      Bool.false_eq_true, if_false]
    exact List.perm_middle.symm

theorem find_keys_perm {κ : Type} (o : Order) (key : ρ → κ) (sel : κ → Bool) (t : Table ρ) :
    ((t.find o fun v => sel (key v)).map fun r => key r.val).Perm
      ((t.rows.filter fun r => sel (key r.val)).map fun r => key r.val) :=
  ((o.perm t.rows).filter _).map _

/-! ## Keys -/

/-- No two rows have the same key. A row may have no key at all. -/
def UniqueBy {κ : Type} (key : ρ → Option κ) (t : Table ρ) : Prop :=
  ∀ r ∈ t.rows, ∀ q ∈ t.rows, ∀ k, key r.val = some k → key q.val = some k → r = q

section Keys

variable {κ : Type} {key : ρ → Option κ} {t : Table ρ}

theorem uniqueBy_add (h : t.UniqueBy key) (v : ρ) :
    (t.add v).UniqueBy key ↔ ∀ k, key v = some k → ∀ r ∈ t.rows, key r.val ≠ some k := by
  constructor
  · intro hu k hk r hr hrk
    have hid := t.ids_le r hr
    have := hu r ((mem_add t v r).mpr (Or.inl hr)) _ ((mem_add t v _).mpr (Or.inr rfl)) k hrk hk
    rw [this] at hid
    exact Nat.not_succ_le_self _ hid
  · intro hn r hr q hq k hrk hqk
    rcases (mem_add t v r).mp hr with hr | rfl <;> rcases (mem_add t v q).mp hq with hq | rfl
    · exact h r hr q hq k hrk hqk
    · exact absurd hrk (hn k hqk r hr)
    · exact absurd hqk (hn k hrk q hq)
    · rfl

theorem uniqueBy_put (h : t.UniqueBy key) {q : Row ρ} (hq : q ∈ t.rows) (v : ρ) :
    (t.put q.id v).UniqueBy key ↔ ∀ k, key v = some k → ∀ r ∈ t.rows, r ≠ q → key r.val ≠ some k := by
  constructor
  · intro hu k hk r hr hne hrk
    have hr' := (mem_put hq v r).mpr (Or.inr ⟨hr, hne⟩)
    have := hu r hr' _ ((mem_put hq v _).mpr (Or.inl rfl)) k hrk hk
    exact hne (eq_of_id hr hq (by rw [this]))
  · intro hn r hr x hx k hrk hxk
    rcases (mem_put hq v r).mp hr with rfl | ⟨hr, hrq⟩ <;>
      rcases (mem_put hq v x).mp hx with rfl | ⟨hx, hxq⟩
    · rfl
    · exact absurd hxk (hn k hrk x hx hxq)
    · exact absurd hrk (hn k hxk r hr hrq)
    · exact h r hr x hx k hrk hxk

theorem UniqueBy.of_map (h : t.UniqueBy key) {t' : Table ρ} {f : Row ρ → Row ρ} (ht : t'.rows = t.rows.map f)
    (hf : ∀ r ∈ t.rows, ∀ k, key (f r).val = some k → key r.val = some k) : t'.UniqueBy key := by
  intro r hr q hq k hrk hqk
  rw [ht] at hr hq
  obtain ⟨r', hr', rfl⟩ := List.mem_map.mp hr
  obtain ⟨q', hq', rfl⟩ := List.mem_map.mp hq
  rw [h r' hr' q' hq' k (hf r' hr' k hrk) (hf q' hq' k hqk)]

end Keys

/-! ## Views

The rows of a table often are all of the form `f x`. A view is the set of these `x`, without the
number of rows of each.
-/

/-- The rows as values that `f` builds. -/
def view {σ : Type} (f : σ → ρ) (t : Table ρ) : Set σ := {x | ∃ r ∈ t.rows, r.val = f x}

section Views

variable {σ : Type} {f : σ → ρ} {t : Table ρ}

theorem mem_view_add (hf : Function.Injective f) {x y : σ} :
    x ∈ (t.add (f y)).view f ↔ x = y ∨ x ∈ t.view f := by
  simp only [view, mem_add, Set.mem_ofPred_eq]
  constructor
  · rintro ⟨r, hr | rfl, hx⟩
    · exact Or.inr ⟨r, hr, hx⟩
    · exact Or.inl (hf hx).symm
  · rintro (rfl | ⟨r, hr, hx⟩)
    · exact ⟨_, Or.inr rfl, rfl⟩
    · exact ⟨r, Or.inl hr, hx⟩

variable {q : Row ρ} {x y : σ}

theorem mem_view_put_self (hq : q ∈ t.rows) (y : σ) : y ∈ (t.put q.id (f y)).view f :=
  ⟨_, (mem_put hq _ _).mpr (Or.inl rfl), rfl⟩

theorem mem_view_of_put (hf : Function.Injective f) (hq : q ∈ t.rows) (hx : x ∈ (t.put q.id (f y)).view f) :
    x = y ∨ x ∈ t.view f := by
  obtain ⟨r, hr, hx⟩ := hx
  rcases (mem_put hq _ _).mp hr with rfl | ⟨hr, _⟩
  · exact Or.inl (hf hx).symm
  · exact Or.inr ⟨r, hr, hx⟩

theorem mem_view_put (hf : Function.Injective f) (hq : q ∈ t.rows) {z : σ} (hz : q.val = f z)
    (hx : x ∈ t.view f) : x = z ∨ x ∈ (t.put q.id (f y)).view f := by
  obtain ⟨r, hr, hx⟩ := hx
  by_cases he : r = q
  · subst he
    exact Or.inl (hf (hx.symm.trans hz))
  · exact Or.inr ⟨r, (mem_put hq _ _).mpr (Or.inr ⟨hr, he⟩), hx⟩

theorem view_map (hf : Function.Injective f) {t' : Table ρ} {k : Row ρ → Row ρ} (ht : t'.rows = t.rows.map k)
    (hs : ∀ r ∈ t.rows, ∃ x, r.val = f x) {g : σ → σ} (hk : ∀ i x, (k ⟨i, f x⟩).val = f (g x)) :
    t'.view f = Set.image g (t.view f) := by
  ext y
  simp only [view, ht, List.mem_map, Set.mem_image, Set.mem_ofPred_eq]
  constructor
  · rintro ⟨r, ⟨q, hq, rfl⟩, hy⟩
    obtain ⟨x, hx⟩ := hs q hq
    refine ⟨x, ⟨q, hq, hx⟩, hf ?_⟩
    rw [← hy, ← hk q.id x, ← hx]
  · rintro ⟨x, ⟨q, hq, hx⟩, rfl⟩
    exact ⟨_, ⟨q, hq, rfl⟩, by rw [← hk q.id x, ← hx]⟩

end Views

/-! ## Overlays

A loop that writes rows back, but adds none, only changes the value that is kept for each row.
-/

/-- The same rows with other values. -/
def overlay (t : Table ρ) (f : Row ρ → ρ) : Table ρ where
  nextId := t.nextId
  rows := t.rows.map fun r => ⟨r.id, f r⟩
  ids_le := by
    intro r hr
    obtain ⟨q, hq, rfl⟩ := List.mem_map.mp hr
    exact t.ids_le q hq
  ids_nodup := by
    rw [List.map_map]
    exact t.ids_nodup

section Overlays

variable {t : Table ρ} {f g : Row ρ → ρ}

theorem overlay_congr (h : ∀ r ∈ t.rows, f r = g r) : t.overlay f = t.overlay g := by
  have : (t.rows.map fun r => (⟨r.id, f r⟩ : Row ρ)) = t.rows.map fun r => ⟨r.id, g r⟩ :=
    List.map_congr_left fun r hr => by rw [h r hr]
  simp only [overlay, this]

theorem overlay_self (h : ∀ r ∈ t.rows, f r = r.val) : t.overlay f = t := by
  have : (t.rows.map fun r => (⟨r.id, f r⟩ : Row ρ)) = t.rows := by
    conv_rhs => rw [← List.map_id t.rows]
    exact List.map_congr_left fun r hr => by rw [h r hr]; rfl
  simp only [overlay, this]

@[simp] theorem mem_overlay (t : Table ρ) (f : Row ρ → ρ) (r : Row ρ) :
    r ∈ (t.overlay f).rows ↔ ∃ q ∈ t.rows, r = ⟨q.id, f q⟩ := by
  simp only [overlay, List.mem_map, eq_comm]

theorem put_overlay [DecidableEq ρ] {q : Row ρ} (hq : q ∈ t.rows) (v : ρ) :
    (t.overlay f).put q.id v = t.overlay (Function.update f q v) := by
  have : ((t.overlay f).put q.id v).rows = (t.overlay (Function.update f q v)).rows := by
    simp only [put, overlay, List.map_map]
    apply List.map_congr_left
    intro r hr
    by_cases h : r = q
    · subst h; simp
    · have hid : r.id ≠ q.id := fun e => h (eq_of_id hr hq e)
      simp [hid, Function.update_of_ne h]
  simp only [put, overlay, mk.injEq, true_and] at this ⊢
  exact this

theorem find_overlay (o : Order) (p : ρ → Bool) : ∃ l : List (Row ρ),
    l.Perm (t.rows.filter fun r => p (f r)) ∧ ((t.overlay f).find o p = l.map fun r => ⟨r.id, f r⟩) ∧
      (o.ByKeys → l = (o.app t.rows).filter fun r => p (f r)) := by
  by_cases ho : o.ByKeys
  · refine ⟨(o.app t.rows).filter fun r => p (f r), (o.perm _).filter _, ?_, fun _ => rfl⟩
    have happ : o.app (t.overlay f).rows = (o.app t.rows).map fun r => ⟨r.id, f r⟩ := ho ρ t.rows f
    rw [find, happ, List.filter_map]
    rfl
  have h : ((t.overlay f).find o p).Perm ((t.rows.filter fun r => p (f r)).map fun r => ⟨r.id, f r⟩) := by
    refine ((o.perm _).filter _).trans ?_
    simp only [overlay, List.filter_map, Function.comp_def]
    exact List.Perm.refl _
  obtain ⟨l, he, hl⟩ := (congrFun₂ (List.eq_map_comp_perm _) _ _).mpr h
  exact ⟨l, hl, he, fun hk => absurd hk ho⟩

end Overlays

end Table

/-! ## All orders -/

theorem exists_order {α : Type} {l l' : List α} (h : l.Perm l') :
    ∃ o : Order, o.app l = l' ∧ ∀ {β γ : Type} (f : β → γ) (m : List β),
      o.app (m.map f) = (o.app m).map f := by
  induction h with
  | nil => exact ⟨.insertion, rfl, fun _ _ => rfl⟩
  | cons a _ ih =>
    obtain ⟨o, ho, hmap⟩ := ih
    refine ⟨⟨fun m => m.take 1 ++ o.app (m.drop 1), fun m => ?_⟩, by simp [ho], fun f m => ?_⟩
    · have := (o.perm (m.drop 1)).append_left (m.take 1)
      rwa [List.take_append_drop] at this
    · simp only [List.map_append, List.map_take, ← List.map_drop, hmap]
  | swap a b _ =>
    refine ⟨⟨fun m => (m.take 2).reverse ++ m.drop 2, fun m => ?_⟩, rfl, fun f m => ?_⟩
    · have := (List.reverse_perm (m.take 2)).append_right (m.drop 2)
      rwa [List.take_append_drop] at this
    · simp only [List.map_append, List.map_reverse, List.map_take, List.map_drop]
  | trans _ _ ih₁ ih₂ =>
    obtain ⟨o₁, ho₁, hmap₁⟩ := ih₁
    obtain ⟨o₂, ho₂, hmap₂⟩ := ih₂
    refine ⟨⟨fun m => o₂.app (o₁.app m), fun m => (o₂.perm _).trans (o₁.perm m)⟩,
      by simp only [ho₁, ho₂], ?_⟩
    intro _ _ f m
    simp only [hmap₁, hmap₂]

theorem exists_order_map {α β : Type} {f : α → β} {l : List α} {l' : List β} (h : l'.Perm (l.map f)) :
    ∃ o : Order, (o.app l).map f = l' := by
  obtain ⟨o, ho, hmap⟩ := exists_order h.symm
  exact ⟨o, by rw [← ho, hmap]⟩

end RouteFlow.Store
