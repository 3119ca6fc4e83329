import Mathlib.Data.List.Induction

/-!
# A store under a key

Items come and go, and a store has a place for one item under each key. Several items may have the same
key. A key that is taken keeps the item it has, and whoever goes clears the place.
-/

namespace RouteFlow.Keyed

/-- An item comes or goes. -/
inductive Op (α : Type) where
  | new (a : α)
  | del (a : α)
deriving DecidableEq

def Op.item {α : Type} : Op α → α
  | .new a | .del a => a

variable {α ι κ : Type} [DecidableEq ι] [DecidableEq κ]

/-- The last operation of a history that meets a predicate. -/
def last (p : α → Bool) (h : List (Op α)) : Option (Op α) := (h.filter fun o => p o.item).getLast?

theorem last_snoc (p : α → Bool) (h : List (Op α)) (o : Op α) :
    last p (h ++ [o]) = if p o.item then some o else last p h := by
  unfold last
  rw [List.filter_append]
  by_cases ho : p o.item
  · simp [ho]
  · simp [ho]

theorem last_meets {p : α → Bool} {h : List (Op α)} {o : Op α} (hl : last p h = some o) : p o.item :=
  (List.mem_filter.mp (List.mem_of_getLast? hl)).2

theorem last_of_last {p q : α → Bool} (hqp : ∀ a, q a → p a) {h : List (Op α)} {o : Op α}
    (hl : last p h = some o) (ho : q o.item) : last q h = some o := by
  induction h using List.reverseRecOn with
  | nil => simp [last] at hl
  | append_singleton h x ih =>
    rw [last_snoc] at hl ⊢
    by_cases hx : p x.item
    · rw [if_pos hx, Option.some.injEq] at hl
      rw [hl, if_pos ho]
    · have hqx : ¬ q x.item := fun hq => hx (hqp x.item hq)
      rw [if_neg hx] at hl
      rw [if_neg hqx]
      exact ih hl

section Store

variable (ident : α → ι) (key : ι → κ)

def lastOf (i : ι) (h : List (Op α)) : Option (Op α) := last (fun a => ident a = i) h

def lastAt (k : κ) (h : List (Op α)) : Option (Op α) := last (fun a => key (ident a) = k) h

/-- An item is live if it came and did not go. -/
def Live (h : List (Op α)) (i : ι) : Prop := ∃ a, lastOf ident i h = some (.new a)

/-- Only what is not live comes, and only what is live goes. -/
def Proper : List (Op α) → List (Op α) → Prop
  | _, [] => True
  | before, .new a :: rest => ¬ Live ident before (ident a) ∧ Proper (before ++ [.new a]) rest
  | before, .del a :: rest => Live ident before (ident a) ∧ Proper (before ++ [.del a]) rest

def apply (t : κ → Option α) : Op α → κ → Option α
  | .new a, k => if key (ident a) = k then (t k).or (some a) else t k
  | .del a, k => if key (ident a) = k then none else t k

/-- A store that looks only at the key: what is there stays, and a deletion takes whatever is there. -/
def stored (h : List (Op α)) : κ → Option α := h.foldl (apply ident key) fun _ => none

instance decidableLive (h : List (Op α)) (i : ι) : Decidable (Live ident h i) :=
  match hl : lastOf ident i h with
  | some (.new a) => isTrue ⟨a, hl⟩
  | some (.del _) => isFalse (by simp [Live, hl])
  | none => isFalse (by simp [Live, hl])

instance decidableProper : (before h : List (Op α)) → Decidable (Proper ident before h)
  | _, [] => isTrue trivial
  | before, .new a :: rest =>
    @instDecidableAnd _ _ _ (decidableProper (before ++ [.new a]) rest)
  | before, .del a :: rest =>
    @instDecidableAnd _ _ _ (decidableProper (before ++ [.del a]) rest)

variable {ident key}

theorem Live.mem {h : List (Op α)} {i : ι} (hi : Live ident h i) : ∃ o ∈ h, ident o.item = i := by
  obtain ⟨a, ha⟩ := hi
  obtain ⟨hmem, hid⟩ := List.mem_filter.mp (List.mem_of_getLast? ha)
  exact ⟨.new a, hmem, of_decide_eq_true hid⟩

omit [DecidableEq ι] in
theorem stored_snoc (h : List (Op α)) (o : Op α) (k : κ) :
    stored ident key (h ++ [o]) k = apply ident key (stored ident key h) o k := by
  simp [stored]

theorem live_new {h : List (Op α)} {a : α} {i : ι} :
    Live ident (h ++ [.new a]) i ↔ ident a = i ∨ Live ident h i := by
  unfold Live lastOf
  rw [last_snoc]
  by_cases hi : ident a = i
  · simp [Op.item, hi]
  · simp [Op.item, hi]

theorem live_del {h : List (Op α)} {a : α} {i : ι} :
    Live ident (h ++ [.del a]) i ↔ ident a ≠ i ∧ Live ident h i := by
  unfold Live lastOf
  rw [last_snoc]
  by_cases hi : ident a = i
  · simp [Op.item, hi]
  · simp [Op.item, hi]

theorem live_of_stored {h : List (Op α)} {k : κ} {a : α} (hs : stored ident key h k = some a) :
    key (ident a) = k ∧ Live ident h (ident a) := by
  induction h using List.reverseRecOn with
  | nil => simp [stored] at hs
  | append_singleton h o ih =>
    rw [stored_snoc] at hs
    cases o with
    | new b =>
      rw [live_new]
      simp only [apply] at hs
      split at hs
      · rename_i hk
        rcases Option.or_eq_some_iff.mp hs with hold | ⟨-, hnew⟩
        · exact ⟨(ih hold).1, Or.inr (ih hold).2⟩
        · obtain rfl := Option.some.inj hnew
          exact ⟨hk, Or.inl rfl⟩
      · exact ⟨(ih hs).1, Or.inr (ih hs).2⟩
    | del b =>
      rw [live_del]
      simp only [apply] at hs
      split at hs
      · cases hs
      · rename_i hk
        obtain ⟨hkey, hlive⟩ := ih hs
        refine ⟨hkey, ?_, hlive⟩
        intro heq
        exact hk (by rw [heq, hkey])

omit [DecidableEq ι] in
theorem stored_isSome (h : List (Op α)) (k : κ) :
    (stored ident key h k).isSome ↔ ∃ a, lastAt ident key k h = some (.new a) := by
  induction h using List.reverseRecOn with
  | nil => simp [stored, lastAt, last]
  | append_singleton h o ih =>
    rw [stored_snoc]
    unfold lastAt at ih ⊢
    rw [last_snoc]
    cases o with
    | new b =>
      by_cases hk : key (ident b) = k
      · simp [apply, Op.item, hk]
      · simpa [apply, Op.item, hk] using ih
    | del b =>
      by_cases hk : key (ident b) = k
      · simp [apply, Op.item, hk]
      · simpa [apply, Op.item, hk] using ih

omit [DecidableEq ι] in
theorem key_of_lastAt {h : List (Op α)} {k : κ} {o : Op α} (hl : lastAt ident key k h = some o) :
    key (ident o.item) = k := by
  have hp := last_meets hl
  rwa [decide_eq_true_iff] at hp

theorem lastOf_of_lastAt {h : List (Op α)} {k : κ} {o : Op α} (hl : lastAt ident key k h = some o) :
    lastOf ident (ident o.item) h = some o := by
  apply last_of_last _ hl
  · simp
  · intro b hb
    rw [decide_eq_true_iff] at hb ⊢
    rw [hb]
    exact key_of_lastAt hl

theorem lastAt_isSome {h : List (Op α)} {i : ι} (hi : Live ident h i) :
    ∃ o, lastAt ident key (key i) h = some o := by
  obtain ⟨o, ho, rfl⟩ := hi.mem
  have hne : h.filter (fun x => decide (key (ident x.item) = key (ident o.item))) ≠ [] :=
    List.ne_nil_of_mem (List.mem_filter.mpr ⟨ho, by simp⟩)
  exact ⟨_, List.getLast?_eq_some_getLast hne⟩

/-- The store has exactly the live items if and only if the last operation on the key of each live item is
its own. -/
theorem stored_iff_live (h : List (Op α)) :
    (∀ i, (∃ k a, stored ident key h k = some a ∧ ident a = i) ↔ Live ident h i) ↔
      ∀ i, Live ident h i → ∀ o, lastAt ident key (key i) h = some o → ident o.item = i := by
  constructor
  · intro hexact i hi o ho
    obtain ⟨k, a, ha, rfl⟩ := (hexact i).mpr hi
    obtain ⟨hk, -⟩ := live_of_stored ha
    rw [hk] at ho
    obtain ⟨b, hb⟩ := (stored_isSome h k).mp (by rw [ha]; rfl)
    obtain rfl : o = .new b := Option.some.inj (ho.symm.trans hb)
    -- The last one on the key is live too, and there is only one place for both.
    obtain ⟨k', a', ha', heq⟩ := (hexact (ident b)).mpr ⟨b, lastOf_of_lastAt hb⟩
    have hk' : k' = k := by
      rw [← (live_of_stored ha').1, heq]
      exact key_of_lastAt hb
    rw [hk', ha, Option.some.injEq] at ha'
    rw [ha']
    exact heq.symm
  · intro hlast i
    constructor
    · rintro ⟨k, a, ha, rfl⟩
      exact (live_of_stored ha).2
    · intro hi
      obtain ⟨o, ho⟩ : ∃ o, lastAt ident key (key i) h = some o := lastAt_isSome hi
      obtain rfl := hlast i hi o ho
      obtain ⟨a, ha⟩ := hi
      obtain rfl : o = .new a := Option.some.inj ((lastOf_of_lastAt ho).symm.trans ha)
      obtain ⟨b, hb⟩ := Option.isSome_iff_exists.mp ((stored_isSome h _).mpr ⟨a, ho⟩)
      -- The item in the place is live, so the last operation on the key is its own as well.
      obtain ⟨hkey, hlive⟩ := live_of_stored hb
      rw [← hkey] at ho
      exact ⟨_, b, hb, (hlast _ hlive _ ho).symm⟩

end Store

end RouteFlow.Keyed
