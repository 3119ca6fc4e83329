import RouteFlow.FastPath

/-!
# Topologies with one controller

What the label allocation starts from, and what it adds to it. A `Plan` says what has been written so
far, and the tables at any point of the allocation are those of some plan.
-/

namespace RouteFlow

open Store

/-- The three files, as read, for one controller. No ISL joins a switch to itself. -/
structure Wiring where
  ct : Nat
  conf : RFConfig
  fpconf : RFFPConf
  islconf : RFISLConf
  conf_read : ∀ r ∈ conf.rows, r.val.ctId = ct ∧ r.val.fpLabel = none
  fpconf_read : ∀ r ∈ fpconf.rows, r.val.ctId = ct ∧ r.val.fastPaths = [] ∧ r.val.fpMaster = none
  islconf_read : ∀ r ∈ islconf.rows,
    r.val.ctId = ct ∧ r.val.remCt = ct ∧ r.val.fastPaths = none ∧ r.val.fpMaster = none
  no_loop : ∀ r ∈ islconf.rows, r.val.dpId ≠ r.val.remId

/-- There are labels for all ports. -/
structure Topology extends Wiring where
  ports_le : conf.rows.length ≤ 2046

/-! ## Links -/

namespace Link

def far : Link → Int → Nat
  | fp r, _ => r.val.dpId
  | isl r, parent => if parent = (r.val.dpId : Int) then r.val.remId else r.val.dpId

def Attached (k : Link) (d : Nat) : Prop := k.dpId = d ∨ k.remId = some d

/-- The parent is dp0 for a fast path link and one of the ends for an ISL. -/
def Above (k : Link) (parent : Int) : Prop :=
  match k with
  | fp _ => parent = -1
  | isl r => parent = (r.val.dpId : Int) ∨ parent = (r.val.remId : Int)

/-- The link has a list for its labels. -/
def Claimed : Link → Prop
  | fp _ => True
  | isl r => r.val.fastPaths.isSome

theorem attached_far (k : Link) (m : Int) : k.Attached (k.far m) := by
  unfold Attached far
  cases k with
  | fp r => exact Or.inl rfl
  | isl r =>
    dsimp only [remId, dpId]
    split
    · exact Or.inr rfl
    · exact Or.inl rfl

theorem touches_iff {k : Link} {m : Int} (h : k.Above m) (d : Nat) :
    k.touches d = true ↔ d = k.far m ∨ (d : Int) = m := by
  cases k with
  | fp r =>
    obtain rfl : m = -1 := h
    simp only [touches, far, dpId, remId, Bool.or_eq_true, beq_iff_eq]
    omega
  | isl r =>
    simp only [touches, far, dpId, remId, Bool.or_eq_true, beq_iff_eq]
    split <;> rcases h with rfl | rfl <;> omega

theorem addPaths_nil {k : Link} (h : k.Claimed) : k.addPaths [] = k := by
  cases k with
  | fp r => simp [addPaths]
  | isl r =>
    obtain ⟨ps, hps⟩ := Option.isSome_iff_exists.mp h
    obtain ⟨i, v⟩ := r
    cases v
    simp_all [addPaths]

theorem addPaths_append (k : Link) (a b : List (Nat × Nat)) :
    (k.addPaths a).addPaths b = k.addPaths (a ++ b) := by
  cases k <;> simp [addPaths]

@[simp] theorem addPaths_claimed {k : Link} (a : List (Nat × Nat)) : (k.addPaths a).Claimed := by
  cases k <;> simp [addPaths, Claimed]

end Link

/-- An entry of `check_set`: a link, and the switch it was found from. -/
structure Job where
  link : Link
  parent : Int

def Job.far (j : Job) : Nat := j.link.far j.parent

/-! ## Plans -/

/-- What the allocation has written: labels on ports, labels and masters on links. `par`, `up` and `lvl`
are not in the tables: the switch a link was found from, the link a switch was first reached by,
and how far it is from dp0. -/
@[ext]
structure Plan where
  label : Nat
  lab : Row RFConfigEntry → Option Nat
  paths : Link → Option (List (Nat × Nat))
  master : Link → Option Int
  par : Link → Option Int
  up : Nat → Option Link
  lvl : Nat → Nat

namespace Plan

/-- Before the first round only the fast path links are known. -/
def init : Plan where
  label := firstLabel
  lab _ := none
  paths | .fp _ => some [] | .isl _ => none
  master _ := none
  par | .fp _ => some (-1) | .isl _ => none
  up _ := none
  lvl _ := 0

variable (pl : Plan)

def portVal (r : Row RFConfigEntry) : RFConfigEntry := { r.val with fpLabel := pl.lab r }

def fpVal (r : Row RFFPConfEntry) : RFFPConfEntry :=
  { r.val with fastPaths := (pl.paths (.fp r)).getD [], fpMaster := pl.master (.fp r) }

def islVal (r : Row RFISLConfEntry) : RFISLConfEntry :=
  { r.val with fastPaths := pl.paths (.isl r), fpMaster := pl.master (.isl r) }

def port (r : Row RFConfigEntry) : Row RFConfigEntry := ⟨r.id, pl.portVal r⟩
def islRow (r : Row RFISLConfEntry) : Row RFISLConfEntry := ⟨r.id, pl.islVal r⟩

def link : Link → Link
  | .fp r => .fp ⟨r.id, pl.fpVal r⟩
  | .isl r => .isl (pl.islRow r)

/-- The labels on the link, with the ports of their clients. -/
def carried (k : Link) : List (Nat × Nat) := (pl.paths k).getD []

@[simp] theorem link_dpId (k : Link) : (pl.link k).dpId = k.dpId := by cases k <;> rfl
@[simp] theorem link_remId (k : Link) : (pl.link k).remId = k.remId := by cases k <;> rfl
@[simp] theorem link_fpMaster (k : Link) : (pl.link k).fpMaster = pl.master k := by cases k <;> rfl
@[simp] theorem link_fastPaths (k : Link) : (pl.link k).fastPaths = pl.carried k := by cases k <;> rfl

@[simp] theorem link_touches (k : Link) (d : Int) : (pl.link k).touches d = k.touches d := by
  simp [Link.touches]

theorem link_claimed {k : Link} (h : (pl.paths k).isSome) : (pl.link k).Claimed := by
  cases k with
  | fp r => exact True.intro
  | isl r => exact h

/-! ### What one round writes -/

/-- The ports get the next labels, in this order. -/
def assign (ps : List (Row RFConfigEntry)) : Plan :=
  { pl with
    label := pl.label + ps.length
    lab := fun q => if q ∈ ps then some (pl.label + ps.idxOf q) else pl.lab q }

/-- The labels that these ports get, in order. -/
def entries (ps : List (Row RFConfigEntry)) : List (Nat × Nat) :=
  ps.map fun p => (pl.label + ps.idxOf p, p.val.vmPort)

def write (k : Link) (ps : Option (List (Nat × Nat))) (m : Option Int) : Plan :=
  { pl with paths := Function.update pl.paths k ps, master := Function.update pl.master k m }

/-- The switch finds these ISLs. -/
def claim (d : Nat) (fs : List (Row RFISLConfEntry)) : Plan :=
  { pl with
    paths := fun k => if k ∈ fs.map Link.isl then some [] else pl.paths k
    par := fun k => if k ∈ fs.map Link.isl then some (d : Int) else pl.par k }

/-- The switch of the job is reached over its link, one step further than the parent. -/
def reach (j : Job) : Plan :=
  { pl with
    up := Function.update pl.up j.far (some j.link)
    lvl := Function.update pl.lvl j.far (if j.parent = -1 then 0 else pl.lvl j.parent.toNat + 1) }

end Plan

/-! ## The tables of a plan -/

namespace Wiring

variable (T : Wiring)

def Has : Link → Prop
  | .fp r => r ∈ T.fpconf.rows
  | .isl r => r ∈ T.islconf.rows

/-- The tables that the plan stands for. -/
def state (pl : Plan) : FpState where
  conf := T.conf.overlay pl.portVal
  fpconf := T.fpconf.overlay pl.fpVal
  islconf := T.islconf.overlay pl.islVal
  label := pl.label

/-- The ISLs at a switch, in the order in which their rows come. -/
def islsAt (o : Order) (d : Nat) : List (Row RFISLConfEntry) := RFISLConf.getEntriesByDpid o T.islconf T.ct d

def item (pl : Plan) (j : Job) : CheckItem := ⟨T.ct, j.parent, pl.link j.link⟩

/-- The tables as they were read. -/
def read : FpState := ⟨T.conf, T.fpconf, T.islconf, firstLabel⟩

theorem state_init : T.state .init = T.read := by
  have hc : T.conf.overlay Plan.init.portVal = T.conf := Table.overlay_self fun r hr => by
    obtain ⟨_, h⟩ := T.conf_read r hr
    simp only [Plan.portVal, Plan.init, ← h]
  have hf : T.fpconf.overlay Plan.init.fpVal = T.fpconf := Table.overlay_self fun r hr => by
    obtain ⟨_, h₁, h₂⟩ := T.fpconf_read r hr
    simp only [Plan.fpVal, Plan.init, Option.getD_some, ← h₁, ← h₂]
  have hi : T.islconf.overlay Plan.init.islVal = T.islconf := Table.overlay_self fun r hr => by
    obtain ⟨_, _, h₁, h₂⟩ := T.islconf_read r hr
    simp only [Plan.islVal, Plan.init, ← h₁, ← h₂]
  simp only [state, hc, hf, hi, read]
  rfl

@[simp] theorem state_reach (pl : Plan) (j : Job) : T.state (pl.reach j) = T.state pl := rfl

@[simp] theorem link_reach (pl : Plan) (j : Job) (k : Link) : (pl.reach j).link k = pl.link k := by
  cases k <;> rfl

variable {T}

theorem setLink_state {k : Link} (hk : T.Has k) (pl : Plan) (ps : Option (List (Nat × Nat)))
    (m : Option Int) :
    (T.state pl).setLink ((pl.write k ps m).link k) = T.state (pl.write k ps m) := by
  cases k with
  | fp r =>
    have h : (T.fpconf.overlay pl.fpVal).put r.id ((pl.write (.fp r) ps m).fpVal r) =
        T.fpconf.overlay (pl.write (.fp r) ps m).fpVal := by
      rw [Table.put_overlay hk]
      refine Table.overlay_congr fun q _ => ?_
      by_cases hq : q = r
      · rw [hq, Function.update_self]
      · rw [Function.update_of_ne hq]
        simp [Plan.fpVal, Plan.write, hq]
    have hi : T.islconf.overlay (pl.write (.fp r) ps m).islVal = T.islconf.overlay pl.islVal :=
      Table.overlay_congr fun q _ => by simp [Plan.islVal, Plan.write]
    simp only [state, FpState.setLink, Plan.link, h, hi]
    rfl
  | isl r =>
    have h : (T.islconf.overlay pl.islVal).put r.id ((pl.write (.isl r) ps m).islVal r) =
        T.islconf.overlay (pl.write (.isl r) ps m).islVal := by
      rw [Table.put_overlay hk]
      refine Table.overlay_congr fun q _ => ?_
      by_cases hq : q = r
      · rw [hq, Function.update_self]
      · rw [Function.update_of_ne hq]
        simp [Plan.islVal, Plan.write, hq]
    have hf : T.fpconf.overlay (pl.write (.isl r) ps m).fpVal = T.fpconf.overlay pl.fpVal :=
      Table.overlay_congr fun q _ => by simp [Plan.fpVal, Plan.write]
    simp only [state, FpState.setLink, Plan.link, Plan.islRow, h, hf]
    rfl

theorem getConfigForDp_state (o : Order) (pl : Plan) (d : Nat) : ∃ ps : List (Row RFConfigEntry),
    RFConfig.getConfigForDp o (T.state pl).conf T.ct d = ps.map pl.port ∧ ps.Nodup ∧
      ∀ p, p ∈ ps ↔ p ∈ T.conf.rows ∧ p.val.dpId = d := by
  obtain ⟨ps, hps, he, -⟩ := Table.find_overlay (t := T.conf) (f := pl.portVal) o
    fun c => c.ctId == T.ct && c.dpId == d
  refine ⟨ps, he, hps.nodup_iff.mpr ((List.Nodup.of_map _ T.conf.ids_nodup).filter _), fun p => ?_⟩
  rw [hps.mem_iff, List.mem_filter]
  refine and_congr_right fun hp => ?_
  simp [Plan.portVal, (T.conf_read p hp).1]

theorem mem_islsAt {o : Order} {d : Nat} {r : Row RFISLConfEntry} :
    r ∈ T.islsAt o d ↔ r ∈ T.islconf.rows ∧ (Link.isl r).Attached d := by
  simp only [islsAt, RFISLConf.getEntriesByDpid, List.mem_append, Table.mem_find,
    Bool.and_eq_true, beq_iff_eq, ← and_or_left]
  refine and_congr_right fun hr => ?_
  obtain ⟨hct, hrem, -⟩ := T.islconf_read r hr
  simp only [hct, hrem, true_and, Link.Attached, Link.dpId, Link.remId, Option.some.injEq]

theorem getEntriesByDpid_state (o : Order) (pl : Plan) (d : Nat) : ∃ rs : List (Row RFISLConfEntry),
    RFISLConf.getEntriesByDpid o (T.state pl).islconf T.ct d = rs.map pl.islRow ∧ rs.Nodup ∧
      (∀ r, r ∈ rs ↔ r ∈ T.islconf.rows ∧ (Link.isl r).Attached d) ∧
      (o.ByKeys → rs = T.islsAt o d) := by
  obtain ⟨near, hn, hne, hno⟩ := Table.find_overlay (t := T.islconf) (f := pl.islVal) o
    fun c => c.ctId == T.ct && c.dpId == d
  obtain ⟨rem, hr, hre, hro⟩ := Table.find_overlay (t := T.islconf) (f := pl.islVal) o
    fun c => c.remCt == T.ct && c.remId == d
  have hnodup : T.islconf.rows.Nodup := List.Nodup.of_map _ T.islconf.ids_nodup
  have mem_near : ∀ r, r ∈ near ↔ r ∈ T.islconf.rows ∧ r.val.dpId = d := by
    intro r
    rw [hn.mem_iff, List.mem_filter]
    exact and_congr_right fun hr => by simp [Plan.islVal, (T.islconf_read r hr).1]
  have mem_rem : ∀ r, r ∈ rem ↔ r ∈ T.islconf.rows ∧ r.val.remId = d := by
    intro r
    rw [hr.mem_iff, List.mem_filter]
    exact and_congr_right fun hr => by simp [Plan.islVal, (T.islconf_read r hr).2.1]
  refine ⟨near ++ rem, ?_, ?_, fun r => ?_, fun ho => ?_⟩
  · rw [List.map_append]
    exact congrArg₂ (· ++ ·) hne hre
  · rw [List.nodup_append]
    refine ⟨hn.nodup_iff.mpr (hnodup.filter _), hr.nodup_iff.mpr (hnodup.filter _), ?_⟩
    rintro a ha b hb rfl
    have h₁ := (mem_near a).mp ha
    exact T.no_loop a h₁.1 (h₁.2.trans ((mem_rem a).mp hb).2.symm)
  · rw [List.mem_append, mem_near, mem_rem]
    simp only [Link.Attached, Link.dpId, Link.remId, Option.some.injEq]
    tauto
  · rw [hno ho, hro ho]
    rfl

end Wiring

end RouteFlow
