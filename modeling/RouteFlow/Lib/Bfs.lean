import Mathlib.Data.List.Nodup
import Mathlib.Data.Nat.Find

/-!
# Breadth-first numberings

The nodes of a graph in the order in which a search reaches them: the roots first, and then always from
the first node that still has a neighbour left.
-/

namespace RouteFlow.Bfs

variable {ν : Type} {root seen : ν → Prop} {adj : ν → ν → Prop} {num depth : ν → Nat}

/-- `num` is a breadth-first order of the nodes that are seen. -/
structure BreadthFirst (root seen : ν → Prop) (adj : ν → ν → Prop) (num : ν → Nat) : Prop where
  inj : ∀ u v, seen u → seen v → num u = num v → u = v
  reached : ∀ v, seen v → root v ∨ ∃ u, seen u ∧ adj u v ∧ num u < num v
  roots_first : ∀ u v, seen u → seen v → num u < num v → root v → root u
  in_turn : ∀ u v, seen u → seen v → num u < num v → ¬root u → ∀ w, seen w → adj w v →
    ∃ x, seen x ∧ adj x u ∧ num x ≤ num w

/-- The first of the neighbours of `v`, from which the search reaches it. -/
def Parent (root seen : ν → Prop) (adj : ν → ν → Prop) (num : ν → Nat) (v u : ν) : Prop :=
  ¬root v ∧ seen u ∧ adj u v ∧ ∀ w, seen w → adj w v → num u ≤ num w

namespace BreadthFirst

variable (h : BreadthFirst root seen adj num)

include h

theorem exists_parent {v : ν} (hv : seen v) (hr : ¬root v) :
    ∃ u, Parent root seen adj num v u ∧ num u < num v := by
  classical
  obtain ⟨u, hu, ha, hlt⟩ := (h.reached v hv).resolve_left hr
  have hex : ∃ n, ∃ u, seen u ∧ adj u v ∧ num u = n := ⟨num u, u, hu, ha, rfl⟩
  obtain ⟨w, hw, haw, hnum⟩ := Nat.find_spec hex
  have hmin : ∀ x, seen x → adj x v → num w ≤ num x := fun x hx hax => by
    rw [hnum]
    exact Nat.find_min' hex ⟨x, hx, hax, rfl⟩
  exact ⟨w, ⟨hr, hw, haw, hmin⟩, Nat.lt_of_le_of_lt (hmin u hu ha) hlt⟩

theorem parent_unique {v u w : ν} (hu : Parent root seen adj num v u)
    (hw : Parent root seen adj num v w) : u = w := by
  obtain ⟨-, hsu, hau, hminu⟩ := hu
  obtain ⟨-, hsw, haw, hminw⟩ := hw
  exact h.inj u w hsu hsw (Nat.le_antisymm (hminu w hsw haw) (hminw u hsu hau))

variable (hroot : ∀ v, seen v → root v → depth v = 0)
  (hparent : ∀ v u, seen v → Parent root seen adj num v u → depth v = depth u + 1)

include hroot hparent

theorem depth_mono {u v : ν} (hu : seen u) (hv : seen v) (hle : num u ≤ num v) : depth u ≤ depth v := by
  induction hn : num v using Nat.strong_induction_on generalizing u v with
  | _ n ih =>
    rcases Nat.eq_or_lt_of_le hle with heq | hlt
    · rw [h.inj u v hu hv heq]
    by_cases hru : root u
    · rw [hroot u hu hru]
      exact Nat.zero_le _
    have hrv : ¬root v := fun hrv => hru (h.roots_first u v hu hv hlt hrv)
    obtain ⟨w, hw, hwlt⟩ := h.exists_parent hv hrv
    obtain ⟨y, hy, -⟩ := h.exists_parent hu hru
    obtain ⟨x, hx, hax, hxw⟩ := h.in_turn u v hu hv hlt hru w hw.2.1 hw.2.2.1
    have hyw : num y ≤ num w := Nat.le_trans (hy.2.2.2 x hx hax) hxw
    rw [hparent u y hu hy, hparent v w hv hw]
    exact Nat.succ_le_succ (ih (num w) (hn ▸ hwlt) hy.2.1 hw.2.1 hyw rfl)

theorem depth_adj {u v : ν} (hu : seen u) (hv : seen v) (ha : adj u v) : depth v ≤ depth u + 1 := by
  by_cases hr : root v
  · rw [hroot v hv hr]
    exact Nat.zero_le _
  · obtain ⟨w, hw, -⟩ := h.exists_parent hv hr
    rw [hparent v w hv hw]
    exact Nat.succ_le_succ (h.depth_mono hroot hparent hw.2.1 hu (hw.2.2.2 u hu ha))

end BreadthFirst

/-! ## The search

The nodes one after the other. The roots wait first, and then what is next to the nodes reached, in the
order in which these were reached.
-/

section Search

variable [DecidableEq ν] (roots : List ν) (next : ν → List ν)

/-- The nodes that are next to what was reached, in order, and not reached yet. -/
def waiting (reached : List ν) : List ν := (roots ++ reached.flatMap next).filter fun v => v ∉ reached

/-- The first node that waits is reached. -/
def step (reached : List ν) : List ν :=
  match waiting roots next reached with
  | [] => reached
  | v :: _ => reached ++ [v]

/-- The nodes that are reached in so many steps, in order. -/
def search : Nat → List ν
  | 0 => []
  | n + 1 => step roots next (search n)

variable {roots next}

theorem waiting_step {reached rest : List ν} {v : ν} (h : waiting roots next reached = v :: rest) :
    waiting roots next (reached ++ [v]) =
      rest.filter (fun u => u ≠ v) ++ (next v).filter fun u => u ∉ reached ++ [v] := by
  have hold : (roots ++ reached.flatMap next).filter (fun u => u ∉ reached ++ [v]) =
    rest.filter fun u => u ≠ v := by
    have hsplit : (fun u => decide (u ∉ reached ++ [v])) = fun u => decide (u ≠ v) &&
      decide (u ∉ reached) := by
      funext u
      simp only [List.mem_append, List.mem_singleton, not_or, Bool.decide_and, Bool.and_comm]
    rw [hsplit, ← List.filter_filter,
      show (roots ++ reached.flatMap next).filter (fun u => u ∉ reached) = v :: rest
      from h]
    simp
  rw [waiting, List.flatMap_append, ← List.append_assoc, List.filter_append, hold]
  simp

theorem search_nodup (n : Nat) : (search roots next n).Nodup := by
  induction n with
  | zero => exact List.nodup_nil
  | succ n ih =>
    rw [search, step]
    split
    · exact ih
    · rename_i v rest hw
      have hv : v ∈ waiting roots next (search roots next n) := by
        rw [hw]
        exact List.mem_cons_self
      have hnew := of_decide_eq_true (List.mem_filter.mp hv).2
      exact ih.append (List.nodup_singleton v) (by simpa using hnew)

theorem search_subset {nodes : List ν} (hroots : roots ⊆ nodes) (hnext : ∀ v, next v ⊆ nodes) (n : Nat) :
    search roots next n ⊆ nodes := by
  induction n with
  | zero => exact List.nil_subset _
  | succ n ih =>
    rw [search, step]
    split
    · exact ih
    · rename_i v rest hw
      refine List.append_subset.mpr ⟨ih, fun u hu => ?_⟩
      obtain rfl := List.mem_singleton.mp hu
      have hv : u ∈ waiting roots next (search roots next n) := by
        rw [hw]
        exact List.mem_cons_self
      rcases List.mem_append.mp (List.mem_filter.mp hv).1 with hv | hv
      · exact hroots hv
      · obtain ⟨w, -, hw⟩ := List.mem_flatMap.mp hv
        exact hnext w hw

theorem search_stays {n m : Nat} (h : waiting roots next (search roots next n) = []) (hle : n ≤ m) :
    search roots next m = search roots next n := by
  induction hle with
  | refl => rfl
  | step _ ih => rw [search, ih, step, h]

end Search

end RouteFlow.Bfs
