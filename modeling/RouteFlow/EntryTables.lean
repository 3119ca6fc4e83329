import Mathlib.Data.List.AList
import RouteFlow.Lib.Run
import RouteFlow.Tables
import RouteFlow.Wire

/-!
# The dictionaries of the tables

`MemoryTable.py`, and the part of `rftable.py` that goes between entries and dictionaries. A table keeps
a dictionary of attributes for each entry, and a query names attributes. The typed tables are what is
seen of them.
-/

namespace RouteFlow

open Store

/-! ## Dictionaries -/

/-- The value of an attribute. `fast_paths` is a list of pairs. -/
inductive Attr where
  | none
  | int (n : Int)
  | text (t : Text)
  | pairs (l : List (Nat × Nat))
deriving DecidableEq

/-- The attributes of an entry, as `vars` gives them. -/
abbrev Dict := AList fun _ : String => Attr

abbrev Kwargs := List (String × Attr)

/-- `Table` has the rows as the handlers see them. -/
structure MemoryTable where
  nextId : Nat := 1000
  data : AList fun _ : Attr => Dict := ∅

namespace MemoryTable

/-- The loop over `kwargs`, which stops at the first that is not met. -/
def meets (d : Dict) : Kwargs → Bool
  | [] => true
  | (k, v) :: kwargs => if d.lookup k = some v then meets d kwargs else false

/-- A dictionary gives its values in any order. -/
def getDicts (o : Order) (t : MemoryTable) (kwargs : Kwargs) : List Dict :=
  let values := (o.app t.data.entries).map (·.2)
  if kwargs.length = 0 then values else values.filter (meets · kwargs)

/-- `MemoryTable.set_dict`: a new entry gets the next id. -/
def setDict (t : MemoryTable) (d : Dict) : MemoryTable × Attr :=
  let (t, d) :=
    if "_id" ∈ d then (t, d)
    else ({ t with nextId := t.nextId + 1 }, d.insert "_id" (.int ↑(t.nextId + 1)))
  let id := (d.lookup "_id").getD .none
  ({ t with data := t.data.insert id d }, id)

end MemoryTable

/-- The attributes of an entry, with `id` apart. -/
structure BaseEntry where
  id : Attr := .none
  vars : Dict

namespace BaseEntry

/-- `BaseEntry.from_dict`. Without `_id` it raises. -/
def fromDict (data : Dict) : Except PyErr BaseEntry :=
  match data.lookup "_id" with
  | some id => .ok ⟨id, data.erase "_id"⟩
  | none => .error .attributeError

def toDict (e : BaseEntry) : Dict := if e.id ≠ .none then e.vars.insert "_id" e.id else e.vars

end BaseEntry

namespace EntryTable

def getEntries (o : Order) (t : MemoryTable) (kwargs : Kwargs) : Except PyErr (List BaseEntry) :=
  (t.getDicts o kwargs).mapM BaseEntry.fromDict

def setEntry (t : MemoryTable) (e : BaseEntry) : MemoryTable × BaseEntry :=
  let (t, id) := t.setDict e.toDict
  (t, { e with id := id })

/-- `None` without a result, and else the first. -/
def getEntry (o : Order) (t : MemoryTable) (kwargs : Kwargs) : Except PyErr (Option BaseEntry) :=
  (getEntries o t kwargs).map List.head?

end EntryTable

def Attr.opt : Option Nat → Attr
  | .none => .none
  | some n => .int n

def Attr.addr : Option Text → Attr
  | .none => .none
  | some t => .text t

/-! ## The queries of `rftable.py` -/

namespace EntryTable

section Queries

variable (o : Order) (t : MemoryTable)

namespace RFTable

def getEntryByVmPort (vmId vmPort : Option Nat) : Except PyErr (Option BaseEntry) :=
  getEntry o t [("vm_id", .opt vmId), ("vm_port", .opt vmPort)]

def getEntryByDpPort (ctId dpId dpPort : Option Nat) : Except PyErr (Option BaseEntry) :=
  getEntry o t [("ct_id", .opt ctId), ("dp_id", .opt dpId), ("dp_port", .opt dpPort)]

def getDpEntries (ctId dpId : Option Nat) : Except PyErr (List BaseEntry) :=
  getEntries o t [("ct_id", .opt ctId), ("dp_id", .opt dpId)]

def isDpRegistered (ctId dpId : Option Nat) : Except PyErr Bool :=
  (getDpEntries o t ctId dpId).map fun entries => !entries.isEmpty

def getEntryByVsPort (vsId vsPort : Option Nat) : Except PyErr (Option BaseEntry) :=
  getEntry o t [("vs_id", .opt vsId), ("vs_port", .opt vsPort)]

end RFTable

namespace RFConfig

def getConfigForVmPort (vmId vmPort : Option Nat) : Except PyErr (Option BaseEntry) :=
  getEntry o t [("vm_id", .opt vmId), ("vm_port", .opt vmPort)]

def getConfigForDpPort (ctId dpId dpPort : Option Nat) : Except PyErr (Option BaseEntry) :=
  getEntry o t [("ct_id", .opt ctId), ("dp_id", .opt dpId), ("dp_port", .opt dpPort)]

/-- `None` stands for no line. -/
def getConfigForDp (ctId dpId : Option Nat) : Except PyErr (Option (List BaseEntry)) :=
  (getEntries o t [("ct_id", .opt ctId), ("dp_id", .opt dpId)]).map fun result =>
    if result.isEmpty then none else some result

end RFConfig

namespace RFISLTable

def getEntryByAddr (ctId dpId dpPort : Option Nat)
    (ethAddr : Option Text) : Except PyErr (Option BaseEntry) :=
  getEntry o t [("ct_id", .opt ctId), ("dp_id", .opt dpId), ("dp_port", .opt dpPort),
    ("eth_addr", .addr ethAddr)]

/-- The first row whose other end this is. -/
def getEntryByRemote (remCt remId remPort : Option Nat) (remEthAddr : Option Text) :
    Except PyErr (Option BaseEntry) :=
  getEntry o t [("rem_ct", .opt remCt), ("rem_id", .opt remId), ("rem_port", .opt remPort),
    ("rem_eth_addr", .addr remEthAddr)]

def getDpEntries (ctId dpId : Option Nat) : Except PyErr (List BaseEntry) :=
  getEntries o t [("ct_id", .opt ctId), ("dp_id", .opt dpId)]

def isDpRegistered (ctId dpId : Option Nat) : Except PyErr Bool :=
  (getDpEntries o t ctId dpId).map fun entries => !entries.isEmpty

/-- The query that `register_route_mod` and `set_dp_down` make themselves. -/
def getRemoteEntries (remCt remId : Option Nat) : Except PyErr (List BaseEntry) :=
  getEntries o t [("rem_ct", .opt remCt), ("rem_id", .opt remId)]

end RFISLTable

namespace RFISLConf

/-- The lines of either end. A line with both ends here comes twice. -/
def getEntriesByPort (ct id port : Option Nat) : Except PyErr (List BaseEntry) := do
  let results ← getEntries o t [("ct_id", .opt ct), ("dp_id", .opt id), ("dp_port", .opt port)]
  let more ← getEntries o t [("rem_ct", .opt ct), ("rem_id", .opt id), ("rem_port", .opt port)]
  return results ++ more

def getEntriesByDpid (ct id : Option Nat) : Except PyErr (List BaseEntry) := do
  let results ← getEntries o t [("ct_id", .opt ct), ("dp_id", .opt id)]
  let more ← getEntries o t [("rem_ct", .opt ct), ("rem_id", .opt id)]
  return results ++ more

end RFISLConf

namespace RFFPConf

def getEntriesAll : Except PyErr (List BaseEntry) := getEntries o t []

def getEntriesForDpid (ct dpId : Option Nat) : Except PyErr (List BaseEntry) :=
  getEntries o t [("ct_id", .opt ct), ("dp_id", .opt dpId)]

def getEntriesForPort (ct dpId dpPort : Option Nat) : Except PyErr (List BaseEntry) :=
  getEntries o t [("ct_id", .opt ct), ("dp_id", .opt dpId), ("dp_port", .opt dpPort)]

end RFFPConf

end Queries

end EntryTable

/-! ## What is seen of an entry -/

@[simp] theorem Attr.opt_inj {a b : Option Nat} : Attr.opt a = Attr.opt b ↔ a = b := by
  cases a <;> cases b <;> simp [Attr.opt]

@[simp] theorem Attr.addr_inj {a b : Option Text} : Attr.addr a = Attr.addr b ↔ a = b := by
  cases a <;> cases b <;> simp [Attr.addr]

/-- The text of an address, however it is written. -/
def Attr.ShowsMac : Option Mac → Attr → Prop
  | .none, a => a = .none
  | some m, a => ∃ t, a = .text t ∧ Py.etherToBin t = .ok m.bytes

/-- The attributes are there, and no `_id`, which `from_dict` takes away. -/
structure Has (attrs : Kwargs) (d : Dict) : Prop where
  lookup : ∀ a ∈ attrs, d.lookup a.1 = some a.2
  no_id : "_id" ∉ d

/-- Clients write the addresses of their ports. -/
def RFEntry.Shown (e : RFEntry) (d : Dict) : Prop :=
  Has [("vm_id", .opt e.vmId), ("vm_port", .opt e.vmPort), ("ct_id", .opt e.ctId), ("dp_id", .opt e.dpId),
    ("dp_port", .opt e.dpPort), ("vs_id", .opt e.vsId), ("vs_port", .opt e.vsPort)] d ∧
  ∃ a, d.lookup "eth_addr" = some a ∧ a.ShowsMac e.ethAddr

def RFISLEntry.Shown (e : RFISLEntry) : Dict → Prop := Has
  [("vm_id", .opt e.vmId), ("ct_id", .opt e.ctId), ("dp_id", .opt e.dpId), ("dp_port", .opt e.dpPort),
    ("eth_addr", .addr e.ethAddr), ("rem_ct", .opt e.remCt), ("rem_id", .opt e.remId),
      ("rem_port", .opt e.remPort),
    ("rem_eth_addr", .addr e.remEthAddr)]

/-- A port without a label does not have the attribute. -/
def RFConfigEntry.Shown (c : RFConfigEntry) (d : Dict) : Prop :=
  Has [("vm_id", .opt c.vmId), ("vm_port", .opt c.vmPort), ("ct_id", .opt c.ctId), ("dp_id", .opt c.dpId),
    ("dp_port", .opt c.dpPort)] d ∧
  d.lookup "fp_label" = c.fpLabel.map fun l => .int l

def RFISLConfEntry.Shown (c : RFISLConfEntry) (d : Dict) : Prop :=
  Has [("vm_id", .opt c.vmId), ("ct_id", .opt c.ctId), ("dp_id", .opt c.dpId), ("dp_port", .opt c.dpPort),
    ("eth_addr", .addr c.ethAddr), ("rem_ct", .opt c.remCt), ("rem_id", .opt c.remId),
      ("rem_port", .opt c.remPort),
    ("rem_eth_addr", .addr c.remEthAddr)] d ∧
  d.lookup "fast_paths" = c.fastPaths.map .pairs ∧
  (d.lookup "fp_master").getD .none = (c.fpMaster.map .int).getD .none

def RFFPConfEntry.Shown (c : RFFPConfEntry) (d : Dict) : Prop :=
  Has [("ct_id", .opt c.ctId), ("dp_id", .opt c.dpId), ("dp_port", .opt c.dpPort),
    ("dp0_port", .opt c.dp0Port), ("fast_paths", .pairs c.fastPaths)] d ∧
  (d.lookup "fp_master").getD .none = (c.fpMaster.map .int).getD .none

/-! ## A table of dictionaries and its rows -/

theorem erase_insert {d : Dict} {k : String} (h : k ∉ d) (v : Attr) : (d.insert k v).erase k = d := by
  apply AList.ext
  rw [AList.insert_of_notMem h]
  exact List.kerase_cons_eq rfl

theorem meets_insert (d : Dict) {k : String} (v : Attr) {kwargs : Kwargs} (h : ∀ a ∈ kwargs, a.1 ≠ k) :
    MemoryTable.meets (d.insert k v) kwargs = MemoryTable.meets d kwargs := by
  induction kwargs with
  | nil => rfl
  | cons a kwargs ih =>
    have hne := h a List.mem_cons_self
    simp only [MemoryTable.meets, AList.lookup_insert_ne hne, ih fun b hb => h b (List.mem_cons_of_mem _ hb)]

theorem getDicts_filter (o : Order) (t : MemoryTable) (kwargs : Kwargs) :
    t.getDicts o kwargs = ((o.app t.data.entries).map (·.2)).filter (MemoryTable.meets · kwargs) := by
  unfold MemoryTable.getDicts
  dsimp only
  split
  · rename_i hlen
    obtain rfl := List.length_eq_zero_iff.mp hlen
    exact (List.filter_eq_self.mpr fun _ _ => rfl).symm
  · rfl

section Refinement

variable {ρ : Type} (Shown : ρ → Dict → Prop)

/-- The entry is the row, read out of its dictionary. -/
def Reads (e : BaseEntry) (r : Row ρ) : Prop := e.id = .int r.id ∧ Shown r.val e.vars

/-- There is a dictionary for each row under its id, and no other. -/
structure Keeps (t : MemoryTable) (T : Table ρ) : Prop where
  next : t.nextId = T.nextId
  keys : t.data.keys.Perm (T.rows.map fun r => .int r.id)
  shown : ∀ r ∈ T.rows, ∃ d, t.data.lookup (.int r.id) = some (d.insert "_id" (.int r.id)) ∧ Shown r.val d

variable {Shown}

theorem keeps_empty : Keeps Shown {} (memoryTable ρ) := ⟨rfl, .nil, by simp [memoryTable]⟩

theorem Keeps.mem_keys {t : MemoryTable} {T : Table ρ} (h : Keeps Shown t T) (n : Nat) :
    .int n ∈ t.data ↔ ∃ r ∈ T.rows, r.id = n := by
  rw [AList.mem_keys, h.keys.mem_iff, List.mem_map]
  simp

variable (hid : ∀ v d, Shown v d → "_id" ∉ d)
include hid

theorem Keeps.create {t : MemoryTable} {T : Table ρ} (h : Keeps Shown t T) {vars : Dict} {v : ρ}
    (hv : Shown v vars) : Keeps Shown (EntryTable.setEntry t ⟨.none, vars⟩).1 (T.add v) := by
  have hset : (EntryTable.setEntry t ⟨.none, vars⟩).1 =
      ⟨t.nextId + 1, t.data.insert (.int ↑(T.nextId + 1)) (vars.insert "_id" (.int ↑(T.nextId + 1)))⟩ := by
    simp [EntryTable.setEntry, BaseEntry.toDict, MemoryTable.setDict, hid v vars hv, h.next]
  have hnew : Attr.int ↑(T.nextId + 1) ∉ t.data := by
    rw [h.mem_keys]
    rintro ⟨r, hr, hrid⟩
    have := T.ids_le r hr
    omega
  rw [hset]
  refine ⟨congrArg (· + 1) h.next, ?_, ?_⟩
  · rw [AList.keys_insert, List.erase_of_not_mem fun hmem => hnew (AList.mem_keys.mpr hmem)]
    simp only [Table.add, List.map_append, List.map_cons, List.map_nil]
    exact (h.keys.cons _).trans (@List.perm_append_comm _ [_] _)
  · intro r hr
    rcases (Table.mem_add T v r).mp hr with hr | rfl
    · obtain ⟨d, hd, hshown⟩ := h.shown r hr
      have hne : Attr.int ↑r.id ≠ Attr.int ↑(T.nextId + 1) := by
        have := T.ids_le r hr
        simp only [ne_eq, Attr.int.injEq]
        omega
      exact ⟨d, (AList.lookup_insert_ne hne).trans hd, hshown⟩
    · exact ⟨vars, AList.lookup_insert _, hv⟩

omit hid in
theorem Keeps.update {t : MemoryTable} {T : Table ρ} (h : Keeps Shown t T) {q : Row ρ} (hq : q ∈ T.rows)
    {vars : Dict} {v : ρ} (hv : Shown v vars) :
    Keeps Shown (EntryTable.setEntry t ⟨.int q.id, vars⟩).1 (T.put q.id v) := by
  have hset : (EntryTable.setEntry t ⟨.int q.id, vars⟩).1 =
      ⟨t.nextId, t.data.insert (.int q.id) (vars.insert "_id" (.int q.id))⟩ := by
    simp [EntryTable.setEntry, BaseEntry.toDict, MemoryTable.setDict]
  rw [hset]
  refine ⟨h.next, ?_, ?_⟩
  · have hmem : Attr.int ↑q.id ∈ t.data.keys := AList.mem_keys.mp ((h.mem_keys q.id).mpr ⟨q, hq, rfl⟩)
    rw [AList.keys_insert]
    refine ((List.perm_cons_erase hmem).symm.trans h.keys).trans ?_
    simp only [Table.put, List.map_map]
    refine .of_eq (List.map_congr_left fun r _ => ?_)
    dsimp only [Function.comp_apply]
    split <;> rfl
  · intro r hr
    rcases (Table.mem_put hq v r).mp hr with rfl | ⟨hr, hne⟩
    · exact ⟨vars, AList.lookup_insert _, hv⟩
    · obtain ⟨d, hd, hshown⟩ := h.shown r hr
      have hkey : Attr.int ↑r.id ≠ Attr.int ↑q.id := by
        simp only [ne_eq, Attr.int.injEq, Int.natCast_inj]
        exact fun heq => hne (Table.eq_of_id hr hq heq)
      exact ⟨d, (AList.lookup_insert_ne hkey).trans hd, hshown⟩

theorem getEntries_reads {entries : List (Sigma fun _ : Attr => Dict)} {rows : List (Row ρ)}
    (h : List.Forall₂ (fun s r => ∃ d, s.2 = d.insert "_id" (.int r.id) ∧ Shown r.val d) entries rows)
    {kwargs : Kwargs} {p : ρ → Bool} (hkw : ∀ a ∈ kwargs, a.1 ≠ "_id")
    (hp : ∀ v d, Shown v d → MemoryTable.meets d kwargs = p v) :
    ∃ es, ((entries.map (·.2)).filter (MemoryTable.meets · kwargs)).mapM BaseEntry.fromDict = Except.ok es ∧
      List.Forall₂ (Reads Shown) es (rows.filter fun r => p r.val) := by
  induction h with
  | nil => exact ⟨[], rfl, .nil⟩
  | @cons s r entries rows hsr _ ih =>
    obtain ⟨es, hes, hall⟩ := ih
    obtain ⟨d, hd, hshown⟩ := hsr
    have hmeets : MemoryTable.meets s.2 kwargs = p r.val := by
      rw [hd, meets_insert d _ hkw, hp _ _ hshown]
    by_cases hpr : p r.val = true
    · refine ⟨⟨.int r.id, d⟩ :: es, ?_, ?_⟩
      · have hfrom : BaseEntry.fromDict s.2 = .ok ⟨.int r.id, d⟩ := by
          simp [BaseEntry.fromDict, hd, erase_insert (hid _ _ hshown)]
        rw [List.map_cons, List.filter_cons_of_pos (by rw [hmeets, hpr]), List.mapM_cons, hfrom, hes]
        rfl
      · rw [List.filter_cons_of_pos (p := fun r : Row ρ => p r.val) hpr]
        exact .cons ⟨rfl, hshown⟩ hall
    · refine ⟨es, ?_, ?_⟩
      · rw [List.map_cons, List.filter_cons_of_neg (by rw [hmeets]; exact hpr)]
        exact hes
      · rw [List.filter_cons_of_neg (p := fun r : Row ρ => p r.val) hpr]
        exact hall

/-- Whatever the order of the dictionary, one order of the rows gives the same results to all queries. -/
theorem Keeps.find {t : MemoryTable} {T : Table ρ} (h : Keeps Shown t T) (o : Order) :
    ∃ o' : Order, ∀ (kwargs : Kwargs) (p : ρ → Bool), (∀ a ∈ kwargs, a.1 ≠ "_id") →
      (∀ v d, Shown v d → MemoryTable.meets d kwargs = p v) →
      ∃ es, EntryTable.getEntries o t kwargs = .ok es ∧ List.Forall₂ (Reads Shown) es (T.find o' p) := by
  have hkeys : ((o.app t.data.entries).map (·.1)).Perm (T.rows.map fun r => Attr.int r.id) :=
    ((o.perm t.data.entries).map _).trans h.keys
  obtain ⟨o', ho'⟩ := exists_order_map hkeys
  refine ⟨o', fun kwargs p hkw hp => ?_⟩
  unfold EntryTable.getEntries
  rw [getDicts_filter]
  refine getEntries_reads hid ?_ hkw hp
  -- The keys in the order of the dictionary are the ids in the order of the rows.
  have hpairs : List.Forall₂ (fun s r => s.1 = Attr.int ↑r.id) (o.app t.data.entries) (o'.app T.rows) := by
    rw [← List.forall₂_map_left_iff (f := Sigma.fst) (R := fun k (r : Row ρ) => k = Attr.int ↑r.id),
      ← List.forall₂_map_right_iff (f := fun r : Row ρ => Attr.int ↑r.id), ho']
    exact List.forall₂_eq_eq_eq ▸ rfl
  have hmem : ∀ s ∈ o.app t.data.entries, ∀ r ∈ o'.app T.rows, s.1 = Attr.int ↑r.id →
      ∃ d, s.2 = d.insert "_id" (.int r.id) ∧ Shown r.val d := by
    intro s hs r hr hsr
    obtain ⟨d, hd, hshown⟩ := h.shown r ((o'.perm T.rows).mem_iff.mp hr)
    have hlookup : t.data.lookup s.1 = some s.2 := AList.mem_lookup_iff.mpr ((o.perm _).mem_iff.mp hs)
    rw [hsr, hd] at hlookup
    exact ⟨d, (Option.some.inj hlookup).symm, hshown⟩
  obtain ⟨hlen, hzip⟩ := List.forall₂_iff_zip.mp hpairs
  refine List.forall₂_iff_zip.mpr ⟨hlen, fun {s r} hsr => ?_⟩
  obtain ⟨hs, hr⟩ := List.of_mem_zip hsr
  exact hmem s hs r hr (hzip hsr)

end Refinement

/-! ## Histories -/

/-- A call of `set_entry`, with what is seen of its entry. -/
inductive Write (ρ : Type) where
  | create (vars : Dict) (v : ρ)
  -- The entry was read out of the table under this id.
  | update (id : Nat) (vars : Dict) (v : ρ)

namespace Write

variable {ρ : Type}

/-- Both tables take the entry. -/
def step (s : MemoryTable × Table ρ) : Write ρ → MemoryTable × Table ρ
  | .create vars v => ((EntryTable.setEntry s.1 ⟨.none, vars⟩).1, setEntry s.2 none v)
  | .update id vars v => ((EntryTable.setEntry s.1 ⟨.int id, vars⟩).1, setEntry s.2 (some id) v)

/-- The entry shows the row, and an update is of a row that is there. -/
def Sound (Shown : ρ → Dict → Prop) (s : MemoryTable × Table ρ) : Write ρ → Prop
  | .create vars v => Shown v vars
  | .update id vars v => Shown v vars ∧ ∃ r ∈ s.2.rows, r.id = id

def run (ws : List (Write ρ)) : MemoryTable × Table ρ := Run.run step ({}, memoryTable ρ) ws

theorem run_keeps {Shown : ρ → Dict → Prop} (hid : ∀ v d, Shown v d → "_id" ∉ d) {ws : List (Write ρ)}
    (h : Run.Along step (Sound Shown) ({}, memoryTable ρ) ws) : Keeps Shown (run ws).1 (run ws).2 := by
  refine Run.invariant (I := fun s : MemoryTable × Table ρ => Keeps Shown s.1 s.2) ?_ keeps_empty h
  rintro ⟨t, T⟩ (⟨vars, v⟩ | ⟨id, vars, v⟩) hw hkeeps
  · exact hkeeps.create hid hw
  · obtain ⟨hv, r, hr, rfl⟩ := hw
    exact hkeeps.update hr hv

end Write

/-! ## The queries agree -/

section Agreement

variable {ρ : Type} (Shown : ρ → Dict → Prop)

/-- The query returns, with the entries of these rows. -/
def Listed (result : Except PyErr (List BaseEntry)) (rows : List (Row ρ)) : Prop :=
  ∃ es, result = .ok es ∧ List.Forall₂ (Reads Shown) es rows

/-- The query returns, with the entry of this row or `None`. -/
def Found (result : Except PyErr (Option BaseEntry)) (row : Option (Row ρ)) : Prop :=
  ∃ e, result = .ok e ∧ Option.Rel (Reads Shown) e row

variable {Shown}

theorem Listed.head {result : Except PyErr (List BaseEntry)} {rows : List (Row ρ)}
    (h : Listed Shown result rows) :
    Found Shown (result.map List.head?) rows.head? := by
  obtain ⟨es, rfl, hall⟩ := h
  refine ⟨es.head?, rfl, ?_⟩
  cases hall with
  | nil => exact .none
  | cons her _ => exact .some her

theorem Listed.isEmpty {result : Except PyErr (List BaseEntry)} {rows : List (Row ρ)}
    (h : Listed Shown result rows) :
    (result.map fun es => !es.isEmpty) = .ok (!rows.isEmpty) := by
  obtain ⟨es, rfl, hall⟩ := h
  cases hall <;> rfl

theorem Listed.append {result more : Except PyErr (List BaseEntry)} {rows rows' : List (Row ρ)}
    (h : Listed Shown result rows) (h' : Listed Shown more rows') :
    Listed Shown (do let results ← result; let more ← more; return results ++ more) (rows ++ rows') := by
  obtain ⟨es, rfl, hall⟩ := h
  obtain ⟨es', rfl, hall'⟩ := h'
  exact ⟨es ++ es', rfl, List.rel_append hall hall'⟩

end Agreement

/-! ### RFTable -/

/-- All queries of `RFTable` agree, for these orders. -/
structure RFTable.Agree (o o' : Order) (t : MemoryTable) (T : RFTable) : Prop where
  byVmPort : ∀ vmId vmPort : Nat, Found RFEntry.Shown (EntryTable.RFTable.getEntryByVmPort o t vmId vmPort)
    (getEntryByVmPort o' T vmId vmPort)
  byDpPort : ∀ ctId dpId dpPort,
    Found RFEntry.Shown (EntryTable.RFTable.getEntryByDpPort o t ctId dpId dpPort)
    (getEntryByDpPort o' T ctId dpId dpPort)
  dpEntries : ∀ ctId dpId : Nat, Listed RFEntry.Shown (EntryTable.RFTable.getDpEntries o t ctId dpId)
    (getDpEntries o' T ctId dpId)
  dpRegistered : ∀ ctId dpId : Nat, EntryTable.RFTable.isDpRegistered o t ctId dpId =
    .ok (isDpRegistered o' T ctId dpId)
  byVsPort : ∀ vsId vsPort : Nat, Found RFEntry.Shown (EntryTable.RFTable.getEntryByVsPort o t vsId vsPort)
    (getEntryByVsPort o' T vsId vsPort)

theorem RFEntry.Shown.no_id {e : RFEntry} {d : Dict} (h : e.Shown d) : "_id" ∉ d := h.1.no_id

theorem RFTable.agree {t : MemoryTable} {T : RFTable} (h : Keeps RFEntry.Shown t T) (o : Order) :
    ∃ o', RFTable.Agree o o' t T := by
  obtain ⟨o', hfind⟩ := h.find (fun _ _ => RFEntry.Shown.no_id) o
  have hdp : ∀ ctId dpId : Nat, Listed RFEntry.Shown (EntryTable.RFTable.getDpEntries o t ctId dpId)
      (getDpEntries o' T ctId dpId) := by
    intro ctId dpId
    refine hfind _ _ (by simp) fun e d he => ?_
    have hd := he.1.lookup
    simp only [List.forall_mem_cons] at hd
    simp [MemoryTable.meets, hd, beq_eq_decide]
  refine ⟨o', ?_, ?_, hdp, fun ctId dpId => (hdp ctId dpId).isEmpty, ?_⟩
  · intro vmId vmPort
    refine Listed.head (hfind _ _ (by simp) fun e d he => ?_)
    have hd := he.1.lookup
    simp only [List.forall_mem_cons] at hd
    simp [MemoryTable.meets, hd, beq_eq_decide]
  · intro ctId dpId dpPort
    refine Listed.head (hfind _ _ (by simp) fun e d he => ?_)
    have hd := he.1.lookup
    simp only [List.forall_mem_cons] at hd
    simp [MemoryTable.meets, hd]
  · intro vsId vsPort
    refine Listed.head (hfind _ _ (by simp) fun e d he => ?_)
    have hd := he.1.lookup
    simp only [List.forall_mem_cons] at hd
    simp [MemoryTable.meets, hd, beq_eq_decide]

/-! ### RFISLTable -/

structure RFISLTable.Agree (o o' : Order) (t : MemoryTable) (T : RFISLTable) : Prop where
  byAddr : ∀ (ctId dpId dpPort : Nat) (ethAddr : Text),
    Found RFISLEntry.Shown (EntryTable.RFISLTable.getEntryByAddr o t ctId dpId dpPort ethAddr)
      (getEntryByAddr o' T ctId dpId dpPort ethAddr)
  byRemote : ∀ remCt remId remPort remEthAddr,
    Found RFISLEntry.Shown (EntryTable.RFISLTable.getEntryByRemote o t remCt remId remPort remEthAddr)
      (getEntryByRemote o' T remCt remId remPort remEthAddr)
  dpEntries : ∀ ctId dpId : Nat, Listed RFISLEntry.Shown (EntryTable.RFISLTable.getDpEntries o t ctId dpId)
    (getDpEntries o' T ctId dpId)
  dpRegistered : ∀ ctId dpId : Nat, EntryTable.RFISLTable.isDpRegistered o t ctId dpId =
    .ok (isDpRegistered o' T ctId dpId)
  remoteEntries : ∀ remCt remId,
    Listed RFISLEntry.Shown (EntryTable.RFISLTable.getRemoteEntries o t remCt remId)
    (getRemoteEntries o' T remCt remId)

theorem RFISLEntry.Shown.no_id {e : RFISLEntry} {d : Dict} (h : e.Shown d) : "_id" ∉ d := Has.no_id h

theorem RFISLTable.agree {t : MemoryTable} {T : RFISLTable} (h : Keeps RFISLEntry.Shown t T) (o : Order) :
    ∃ o', RFISLTable.Agree o o' t T := by
  obtain ⟨o', hfind⟩ := h.find (fun _ _ => RFISLEntry.Shown.no_id) o
  have hdp : ∀ ctId dpId : Nat, Listed RFISLEntry.Shown (EntryTable.RFISLTable.getDpEntries o t ctId dpId)
      (getDpEntries o' T ctId dpId) := by
    intro ctId dpId
    refine hfind _ _ (by simp) fun e d he => ?_
    have hd := he.lookup
    simp only [List.forall_mem_cons] at hd
    simp [MemoryTable.meets, hd, beq_eq_decide]
  refine ⟨o', ?_, ?_, hdp, fun ctId dpId => (hdp ctId dpId).isEmpty, ?_⟩
  · intro ctId dpId dpPort ethAddr
    refine Listed.head (hfind _ _ (by simp) fun e d he => ?_)
    have hd := he.lookup
    simp only [List.forall_mem_cons] at hd
    simp [MemoryTable.meets, hd, beq_eq_decide, Bool.and_assoc]
  · intro remCt remId remPort remEthAddr
    refine Listed.head (hfind _ _ (by simp) fun e d he => ?_)
    have hd := he.lookup
    simp only [List.forall_mem_cons] at hd
    simp [MemoryTable.meets, hd, beq_eq_decide, Bool.and_assoc]
  · intro remCt remId
    refine hfind _ _ (by simp) fun e d he => ?_
    have hd := he.lookup
    simp only [List.forall_mem_cons] at hd
    simp [MemoryTable.meets, hd, beq_eq_decide]

/-! ### The configurations -/

structure RFConfig.Agree (o o' : Order) (t : MemoryTable) (T : RFConfig) : Prop where
  forVmPort : ∀ vmId vmPort : Nat,
    Found RFConfigEntry.Shown (EntryTable.RFConfig.getConfigForVmPort o t vmId vmPort)
    (getConfigForVmPort o' T vmId vmPort)
  forDpPort : ∀ ctId dpId dpPort : Nat,
    Found RFConfigEntry.Shown (EntryTable.RFConfig.getConfigForDpPort o t ctId dpId dpPort)
      (getConfigForDpPort o' T ctId dpId dpPort)
  -- The callers take `None` for an empty list.
  forDp : ∀ ctId dpId : Nat,
    Listed RFConfigEntry.Shown ((EntryTable.RFConfig.getConfigForDp o t ctId dpId).map (·.getD []))
      (getConfigForDp o' T ctId dpId)

theorem RFConfigEntry.Shown.no_id {c : RFConfigEntry} {d : Dict} (h : c.Shown d) : "_id" ∉ d := h.1.no_id

theorem RFConfig.agree {t : MemoryTable} {T : RFConfig} (h : Keeps RFConfigEntry.Shown t T) (o : Order) :
    ∃ o', RFConfig.Agree o o' t T := by
  obtain ⟨o', hfind⟩ := h.find (fun _ _ => RFConfigEntry.Shown.no_id) o
  refine ⟨o', ?_, ?_, ?_⟩
  · intro vmId vmPort
    refine Listed.head (hfind _ _ (by simp) fun c d hc => ?_)
    have hd := hc.1.lookup
    simp only [List.forall_mem_cons] at hd
    simp [MemoryTable.meets, hd, beq_eq_decide]
  · intro ctId dpId dpPort
    refine Listed.head (hfind _ _ (by simp) fun c d hc => ?_)
    have hd := hc.1.lookup
    simp only [List.forall_mem_cons] at hd
    simp [MemoryTable.meets, hd, beq_eq_decide, Bool.and_assoc]
  · intro ctId dpId
    have hlisted : Listed RFConfigEntry.Shown
        (EntryTable.getEntries o t [("ct_id", .opt ctId), ("dp_id", .opt dpId)])
          (getConfigForDp o' T ctId dpId) := by
      refine hfind _ _ (by simp) fun c d hc => ?_
      have hd := hc.1.lookup
      simp only [List.forall_mem_cons] at hd
      simp [MemoryTable.meets, hd, beq_eq_decide]
    unfold EntryTable.RFConfig.getConfigForDp
    obtain ⟨es, hes, hall⟩ := hlisted
    rw [hes]
    refine ⟨es, ?_, hall⟩
    cases es <;> rfl

structure RFISLConf.Agree (o o' : Order) (t : MemoryTable) (T : RFISLConf) : Prop where
  byPort : ∀ ct id port : Nat, Listed RFISLConfEntry.Shown
    (EntryTable.RFISLConf.getEntriesByPort o t ct id port)
    (getEntriesByPort o' T ct id port)
  byDpid : ∀ ct id : Nat, Listed RFISLConfEntry.Shown (EntryTable.RFISLConf.getEntriesByDpid o t ct id)
    (getEntriesByDpid o' T ct id)

theorem RFISLConfEntry.Shown.no_id {c : RFISLConfEntry} {d : Dict} (h : c.Shown d) : "_id" ∉ d := h.1.no_id

theorem RFISLConf.agree {t : MemoryTable} {T : RFISLConf} (h : Keeps RFISLConfEntry.Shown t T) (o : Order) :
    ∃ o', RFISLConf.Agree o o' t T := by
  obtain ⟨o', hfind⟩ := h.find (fun _ _ => RFISLConfEntry.Shown.no_id) o
  refine ⟨o', ?_, ?_⟩
  · intro ct id port
    refine Listed.append (hfind _ _ (by simp) fun c d hc => ?_) (hfind _ _ (by simp) fun c d hc => ?_)
    all_goals
      have hd := hc.1.lookup
      simp only [List.forall_mem_cons] at hd
      simp [MemoryTable.meets, hd, beq_eq_decide, Bool.and_assoc]
  · intro ct id
    refine Listed.append (hfind _ _ (by simp) fun c d hc => ?_) (hfind _ _ (by simp) fun c d hc => ?_)
    all_goals
      have hd := hc.1.lookup
      simp only [List.forall_mem_cons] at hd
      simp [MemoryTable.meets, hd, beq_eq_decide]

structure RFFPConf.Agree (o o' : Order) (t : MemoryTable) (T : RFFPConf) : Prop where
  all : Listed RFFPConfEntry.Shown (EntryTable.RFFPConf.getEntriesAll o t) (getEntriesAll o' T)
  forDpid : ∀ ct dpId : Nat, Listed RFFPConfEntry.Shown (EntryTable.RFFPConf.getEntriesForDpid o t ct dpId)
    (getEntriesForDpid o' T ct dpId)
  forPort : ∀ ct dpId dpPort : Nat,
    Listed RFFPConfEntry.Shown (EntryTable.RFFPConf.getEntriesForPort o t ct dpId dpPort)
    (getEntriesForPort o' T ct dpId dpPort)

theorem RFFPConfEntry.Shown.no_id {c : RFFPConfEntry} {d : Dict} (h : c.Shown d) : "_id" ∉ d := h.1.no_id

theorem RFFPConf.agree {t : MemoryTable} {T : RFFPConf} (h : Keeps RFFPConfEntry.Shown t T) (o : Order) :
    ∃ o', RFFPConf.Agree o o' t T := by
  obtain ⟨o', hfind⟩ := h.find (fun _ _ => RFFPConfEntry.Shown.no_id) o
  refine ⟨o', hfind _ _ (by simp) fun _ _ _ => rfl, ?_, ?_⟩
  · intro ct dpId
    refine hfind _ _ (by simp) fun c d hc => ?_
    have hd := hc.1.lookup
    simp only [List.forall_mem_cons] at hd
    simp [MemoryTable.meets, hd, beq_eq_decide]
  · intro ct dpId dpPort
    refine hfind _ _ (by simp) fun c d hc => ?_
    have hd := hc.1.lookup
    simp only [List.forall_mem_cons] at hd
    simp [MemoryTable.meets, hd, beq_eq_decide, Bool.and_assoc]

/-- After any calls of `set_entry`, and in any order of the dictionary, all queries of a table find the
entries of the rows that they find in the typed table in one order of its rows. -/
theorem queries_agree (o : Order) :
    (∀ ws, Run.Along Write.step (Write.Sound RFEntry.Shown) ({}, memoryTable RFEntry) ws →
      ∃ o', RFTable.Agree o o' (Write.run ws).1 (Write.run ws).2) ∧
    (∀ ws, Run.Along Write.step (Write.Sound RFISLEntry.Shown) ({}, memoryTable RFISLEntry) ws →
      ∃ o', RFISLTable.Agree o o' (Write.run ws).1 (Write.run ws).2) ∧
    (∀ ws, Run.Along Write.step (Write.Sound RFConfigEntry.Shown) ({}, memoryTable RFConfigEntry) ws →
      ∃ o', RFConfig.Agree o o' (Write.run ws).1 (Write.run ws).2) ∧
    (∀ ws, Run.Along Write.step (Write.Sound RFISLConfEntry.Shown) ({}, memoryTable RFISLConfEntry) ws →
      ∃ o', RFISLConf.Agree o o' (Write.run ws).1 (Write.run ws).2) ∧
    (∀ ws, Run.Along Write.step (Write.Sound RFFPConfEntry.Shown) ({}, memoryTable RFFPConfEntry) ws →
      ∃ o', RFFPConf.Agree o o' (Write.run ws).1 (Write.run ws).2) :=
  ⟨fun _ h => RFTable.agree (Write.run_keeps (fun _ _ => RFEntry.Shown.no_id) h) o,
    fun _ h => RFISLTable.agree (Write.run_keeps (fun _ _ => RFISLEntry.Shown.no_id) h) o,
    fun _ h => RFConfig.agree (Write.run_keeps (fun _ _ => RFConfigEntry.Shown.no_id) h) o,
    fun _ h => RFISLConf.agree (Write.run_keeps (fun _ _ => RFISLConfEntry.Shown.no_id) h) o,
    fun _ h => RFFPConf.agree (Write.run_keeps (fun _ _ => RFFPConfEntry.Shown.no_id) h) o⟩

/-- The attributes of an entry that `RFEntry.__init__` sets. -/
def RFEntry.vars (e : RFEntry) : Dict := List.toAList
  [⟨"vm_id", .opt e.vmId⟩, ⟨"vm_port", .opt e.vmPort⟩, ⟨"ct_id", .opt e.ctId⟩, ⟨"dp_id", .opt e.dpId⟩,
    ⟨"dp_port", .opt e.dpPort⟩, ⟨"vs_id", .opt e.vsId⟩, ⟨"vs_port", .opt e.vsPort⟩,
    ⟨"eth_addr", .addr (e.ethAddr.map Mac.text)⟩]

theorem RFEntry.shown_vars (e : RFEntry) : e.Shown e.vars := by
  refine ⟨⟨?_, ?_⟩, .addr (e.ethAddr.map Mac.text), ?_, ?_⟩
  · simp only [List.forall_mem_cons, RFEntry.vars, AList.lookup_to_alist]
    simp [List.dlookup_cons_ne]
  · rw [RFEntry.vars, ← AList.lookup_eq_none, AList.lookup_to_alist]
    simp [List.dlookup_cons_ne]
  · rw [RFEntry.vars, AList.lookup_to_alist]
    simp [List.dlookup_cons_ne]
  · cases he : e.ethAddr with
    | none => rfl
    | some m => exact ⟨m.text, rfl, etherToBin_text m⟩

def idleVmPort : RFEntry := { vmId := some 1, vmPort := some 2, ethAddr := some 7 }

def associated : RFEntry := { idleVmPort with ctId := some 0, dpId := some 5, dpPort := some 3 }

/-- A port is registered and associated then. -/
def associatedPort : List (Write RFEntry) :=
  [.create idleVmPort.vars idleVmPort, .update 1001 associated.vars associated]

theorem queries_agree_associated :
    ∃ e, EntryTable.RFTable.getEntryByDpPort .insertion (Write.run associatedPort).1 (some 0)
      (some 5) (some 3) =
      .ok (some e) ∧ e.id = .int 1001 ∧ associated.Shown e.vars := by
  have hsound : Run.Along Write.step (Write.Sound RFEntry.Shown) ({}, memoryTable RFEntry) associatedPort :=
    ⟨idleVmPort.shown_vars, ⟨associated.shown_vars, ⟨1001, idleVmPort⟩, List.mem_singleton.mpr rfl, rfl⟩,
      trivial⟩
  obtain ⟨o', hagree⟩ := (queries_agree .insertion).1 associatedPort hsound
  obtain ⟨found, hfound, hrel⟩ := hagree.byDpPort (some 0) (some 5) (some 3)
  have hrow : RFTable.getEntryByDpPort o' (Write.run associatedPort).2 (some 0) (some 5) (some 3) =
      some ⟨1001, associated⟩ := by
    have hrows : o'.app (Write.run associatedPort).2.rows = [⟨1001, associated⟩] :=
      List.perm_singleton.mp (o'.perm _)
    unfold RFTable.getEntryByDpPort Table.first Table.find
    rw [hrows]
    rfl
  rw [hrow] at hrel
  cases hrel with
  | some hreads => exact ⟨_, hfound, hreads⟩

end RouteFlow
