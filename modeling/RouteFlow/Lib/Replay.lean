import Mathlib.Data.Finset.Basic
import Mathlib.Tactic

/-!
# Sets kept by updates

A set that is only known through the updates sent to it, oldest first.
-/

namespace RouteFlow.Replay

variable {κ : Type} [DecidableEq κ]

inductive Update (κ : Type) where
  | insert (k : κ)
  | remove (k : κ)
  | skip

def Update.key : Update κ → Option κ
  | insert k | remove k => some k
  | skip => none

def apply (s : Finset κ) : Update κ → Finset κ
  | .insert k => Insert.insert k s
  | .remove k => s.erase k
  | .skip => s

/-- What is there after all updates. -/
def replay (log : List (Update κ)) : Finset κ := log.foldl apply ∅

theorem mem_apply_of_ne {s : Finset κ} {u : Update κ} {k : κ} (h : u.key ≠ some k) :
    k ∈ apply s u ↔ k ∈ s := by
  cases u with
  | insert j =>
    have hne : k ≠ j := fun hk => h (congrArg some hk.symm)
    simp [apply, hne]
  | remove j =>
    have hne : k ≠ j := fun hk => h (congrArg some hk.symm)
    simp [apply, hne]
  | skip => rfl

theorem replay_append (log more : List (Update κ)) : replay (log ++ more) = more.foldl apply (replay log) :=
  List.foldl_append

theorem mem_replay_other {log more : List (Update κ)} {k : κ} (h : ∀ u ∈ more, u.key ≠ some k) :
    k ∈ replay (log ++ more) ↔ k ∈ replay log := by
  induction more using List.reverseRecOn with
  | nil => simp
  | append_singleton more u ih =>
    rw [← List.append_assoc, replay_append, List.foldl_cons, List.foldl_nil, mem_apply_of_ne (h u (by simp))]
    exact ih fun x hx => h x (by simp [hx])

theorem mem_replay_inserts {log : List (Update κ)} {ks : List κ} {k : κ} :
    k ∈ replay (log ++ ks.map .insert) ↔ k ∈ replay log ∨ k ∈ ks := by
  induction ks using List.reverseRecOn with
  | nil => simp
  | append_singleton ks j ih =>
    rw [List.map_append, ← List.append_assoc, replay_append]
    simp only [List.map_cons, List.map_nil, List.foldl_cons, List.foldl_nil, apply, Finset.mem_insert, ih,
      List.mem_append, List.mem_singleton]
    tauto

theorem mem_replay_removes {log : List (Update κ)} {ks : List κ} {k : κ} :
    k ∈ replay (log ++ ks.map .remove) ↔ k ∈ replay log ∧ k ∉ ks := by
  induction ks using List.reverseRecOn with
  | nil => simp
  | append_singleton ks j ih =>
    rw [List.map_append, ← List.append_assoc, replay_append]
    simp only [List.map_cons, List.map_nil, List.foldl_cons, List.foldl_nil, apply, Finset.mem_erase, ih,
      List.mem_append, List.mem_singleton]
    tauto

end RouteFlow.Replay
