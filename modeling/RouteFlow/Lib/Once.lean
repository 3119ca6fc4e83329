import Mathlib.Data.List.DropRight
import RouteFlow.Lib.Run

/-!
# Sent once

The life of an entry of a table whose entries are sent to another party. An entry goes in, is sent, goes
out and is taken back. A history is in order if each key goes through the stages of `next`.
-/

namespace RouteFlow.Once

/-- What happens to an entry. -/
inductive Deed (κ : Type) where
  | inserted (k : κ) | added (k : κ) | erased (k : κ) | removed (k : κ)
deriving DecidableEq

def Deed.key {κ : Type} : Deed κ → κ
  | .inserted k | .added k | .erased k | .removed k => k

/-- An entry that went out is `leaving` if it was sent, and `released` if it was not. -/
inductive Stage where
  | absent | waiting | sent | leaving | released
deriving DecidableEq

def next {κ : Type} : Stage → Deed κ → Option Stage
  | .absent, .inserted _ => some .waiting
  | .released, .inserted _ => some .waiting
  | .waiting, .added _ => some .sent
  | .waiting, .erased _ => some .released
  | .sent, .erased _ => some .leaving
  | .leaving, .removed _ => some .absent
  -- It was never sent, so this takes nothing back.
  | .released, .removed _ => some .absent
  | _, _ => none

theorem next_not_waiting {κ : Type} {st st' : Stage} {d : Deed κ} (h : next st d = some st')
    (hst : st ≠ .waiting) (hd : d ≠ .inserted d.key) : d ≠ .added d.key ∧ st' ≠ .waiting := by
  cases d with
  | inserted k => exact absurd rfl hd
  | added k =>
    cases st <;> cases h
    exact absurd rfl hst
  | erased k | removed k => cases st <;> cases h <;> exact ⟨nofun, nofun⟩

variable {κ : Type} [DecidableEq κ] (k : κ)

/-- The stage of `k` after a history, if that is in order. -/
def walk : Stage → List (Deed κ) → Option Stage
  | st, [] => some st
  | st, d :: h => if d.key = k then (next st d).bind fun st' => walk st' h else walk st h

def stage (h : List (Deed κ)) : Option Stage := walk k .absent h

theorem walk_append (st : Stage) (h h' : List (Deed κ)) :
    walk k st (h ++ h') = (walk k st h).bind fun st' => walk k st' h' := by
  induction h generalizing st with
  | nil => rfl
  | cons d h ih =>
    simp only [List.cons_append, walk]
    split
    · cases next st d with
      | none => rfl
      | some st' => exact ih st'
    · exact ih st

theorem stage_snoc (h : List (Deed κ)) (d : Deed κ) :
    stage k (h ++ [d]) = if d.key = k then (stage k h).bind (next · d) else stage k h := by
  unfold stage
  rw [walk_append]
  cases walk k .absent h with
  | none => simp
  | some st => simp [walk]

/-! ## Since the last insertion -/

/-- What happened after `k` last went in. -/
def since (h : List (Deed κ)) : List (Deed κ) := h.rtakeWhile (· ≠ .inserted k)

/-- What happened before `k` next goes in. -/
def untilNext (h : List (Deed κ)) : List (Deed κ) := h.takeWhile (· ≠ .inserted k)

theorem since_snoc (h : List (Deed κ)) (d : Deed κ) :
    since k (h ++ [d]) = if d = .inserted k then [] else since k h ++ [d] := by
  unfold since
  split
  · rename_i hd
    exact List.rtakeWhile_concat_neg _ _ _ (by simp [hd])
  · rename_i hd
    exact List.rtakeWhile_concat_pos _ _ _ (by simp [hd])

/-- How often it was sent since it went in. -/
def Stage.sends : Stage → Option Nat
  | .absent => none
  | .waiting | .released => some 0
  | .sent | .leaving => some 1

theorem next_sends {st st' : Stage} {d : Deed κ} (h : next st d = some st')
    (hd : d ≠ .inserted d.key) {n : Nat} (hn : st'.sends = some n) :
    ∃ m, st.sends = some m ∧ n = m + if d = .added d.key then 1 else 0 := by
  cases d with
  | inserted k => exact absurd rfl hd
  | added k | erased k | removed k => cases st <;> cases h <;> cases hn <;> exact ⟨_, rfl, by simp [Deed.key]⟩

theorem count_since {h : List (Deed κ)} {st : Stage} (hst : stage k h = some st) {n : Nat}
    (hn : st.sends = some n) : (since k h).count (.added k) = n := by
  induction h using List.reverseRecOn generalizing st n with
  | nil =>
    obtain rfl : Stage.absent = st := Option.some.inj hst
    cases hn
  | append_singleton h d ih =>
    rw [stage_snoc] at hst
    rw [since_snoc]
    by_cases hins : d = .inserted k
    · rw [if_pos hins]
      subst hins
      rw [if_pos (show (Deed.inserted k).key = k from rfl)] at hst
      obtain ⟨st', -, hnext⟩ := Option.bind_eq_some_iff.mp hst
      cases st' <;> cases hnext <;> cases hn <;> rfl
    · rw [if_neg hins, List.count_append, List.count_singleton]
      split at hst
      · rename_i hd
        subst hd
        obtain ⟨st', hst', hnext⟩ := Option.bind_eq_some_iff.mp hst
        obtain ⟨m, hm, rfl⟩ := next_sends hnext hins hn
        rw [ih hst' hm]
        simp
      · rename_i hd
        rw [ih hst hn, if_neg, Nat.add_zero]
        rintro hadd
        exact hd (by rw [eq_of_beq hadd]; rfl)

/-! ## After it went out -/

theorem not_added_of_not_inserted {st st' : Stage} (hst : st ≠ .waiting) {h : List (Deed κ)}
    (hw : walk k st h = some st') (hno : .inserted k ∉ h) : .added k ∉ h := by
  induction h generalizing st with
  | nil => exact List.not_mem_nil
  | cons d h ih =>
    rw [List.mem_cons, not_or] at hno ⊢
    unfold walk at hw
    split at hw
    · rename_i hkey
      subst hkey
      obtain ⟨st₁, hnext, hw⟩ := Option.bind_eq_some_iff.mp hw
      obtain ⟨hadd, hst₁⟩ := next_not_waiting hnext hst (Ne.symm hno.1)
      exact ⟨Ne.symm hadd, ih hst₁ hw hno.2⟩
    · rename_i hkey
      refine ⟨?_, ih hst hw hno.2⟩
      rintro rfl
      exact hkey rfl

theorem walk_cons_other {st : Stage} {d : Deed κ} (hd : d.key ≠ k) (h : List (Deed κ)) :
    walk k st (d :: h) = walk k st h := if_neg hd

theorem untilNext_cons {d : Deed κ} (hd : d ≠ .inserted k) (h : List (Deed κ)) :
    untilNext k (d :: h) = d :: untilNext k h := List.takeWhile_cons_of_pos (by simpa using hd)

theorem count_removed_absent {h : List (Deed κ)} (hw : (walk k .absent h).isSome) :
    (untilNext k h).count (.removed k) = 0 := by
  induction h with
  | nil => rfl
  | cons d h ih =>
    by_cases hkey : d.key = k
    · cases d with
      | inserted k' =>
        obtain rfl : k' = k := hkey
        simp [untilNext]
      | added k' | erased k' | removed k' => simp [walk, hkey, next] at hw
    · rw [walk_cons_other k hkey] at hw
      rw [untilNext_cons k (by rintro rfl; exact hkey rfl),
        List.count_cons_of_ne (by rintro rfl; exact hkey rfl)]
      exact ih hw

theorem count_removed {st : Stage} {h : List (Deed κ)} (hw : walk k .leaving h = some st)
    (hst : st ≠ .leaving) :
    (untilNext k h).count (.removed k) = 1 := by
  induction h with
  | nil => exact absurd (Option.some.inj hw).symm hst
  | cons d h ih =>
    by_cases hkey : d.key = k
    · cases d with
      | removed k' =>
        obtain rfl : k' = k := hkey
        rw [untilNext_cons k' (by simp), List.count_cons_self, count_removed_absent k']
        simp only [walk, next, Deed.key, if_pos, Option.bind_some] at hw
        rw [hw]
        rfl
      | inserted k' | added k' | erased k' => simp [walk, hkey, next] at hw
    · rw [walk_cons_other k hkey] at hw
      rw [untilNext_cons k (by rintro rfl; exact hkey rfl),
        List.count_cons_of_ne (by rintro rfl; exact hkey rfl)]
      exact ih hw

/-! ## A history in order -/

theorem present_iff {h : List (Deed κ)} {st : Stage} (hst : stage k h = some st) :
    Run.Since (· = .inserted k) (· = .erased k) h ↔ st = .waiting ∨ st = .sent := by
  induction h using List.reverseRecOn generalizing st with
  | nil =>
    obtain rfl : Stage.absent = st := Option.some.inj hst
    simp
  | append_singleton h d ih =>
    rw [stage_snoc] at hst
    rw [Run.since_snoc]
    split at hst
    · rename_i hd
      obtain ⟨st', hst', hnext⟩ := Option.bind_eq_some_iff.mp hst
      rw [ih hst']
      subst hd
      cases d <;> cases st' <;> cases hnext <;> simp [Deed.key]
    · rename_i hd
      rw [ih hst]
      have hins : d ≠ .inserted k := by rintro rfl; exact hd rfl
      have hera : d ≠ .erased k := by rintro rfl; exact hd rfl
      simp [hins, hera]

theorem walk_split {st : Stage} {before after : List (Deed κ)} {d : Deed κ} (hd : d.key = k)
    (hst : stage k (before ++ d :: after) = some st) :
    ∃ st₁ st₂, stage k before = some st₁ ∧ next st₁ d = some st₂ ∧ walk k st₂ after = some st := by
  unfold stage at hst
  rw [walk_append] at hst
  obtain ⟨st₁, hst₁, hst⟩ := Option.bind_eq_some_iff.mp hst
  rw [walk, if_pos hd] at hst
  obtain ⟨st₂, hst₂, hst⟩ := Option.bind_eq_some_iff.mp hst
  exact ⟨st₁, st₂, hst₁, hst₂, hst⟩

theorem not_added_after_erased {st : Stage} {before after : List (Deed κ)}
    (hst : stage k (before ++ .erased k :: after) = some st) (hno : .inserted k ∉ after) :
    .added k ∉ after := by
  obtain ⟨st₁, st₂, -, hnext, hw⟩ := walk_split k rfl hst
  have hst₂ : st₂ ≠ .waiting := by cases st₁ <;> cases hnext <;> decide
  exact not_added_of_not_inserted k hst₂ hw hno

/-- An entry that was sent before it went out is taken back once. -/
theorem removed_after_erased {st : Stage} {before after : List (Deed κ)}
    (hst : stage k (before ++ .erased k :: after) = some st) (hdone : st ≠ .leaving)
    (hsent : .added k ∈ since k before) : (untilNext k after).count (.removed k) = 1 := by
  obtain ⟨st₁, st₂, hbefore, hnext, hw⟩ := walk_split k rfl hst
  rw [← List.count_pos_iff] at hsent
  cases st₁ with
  | sent =>
    cases hnext
    exact count_removed k hw hdone
  | waiting =>
    rw [count_since k hbefore rfl] at hsent
    omega
  | absent | leaving | released => cases hnext

end RouteFlow.Once
