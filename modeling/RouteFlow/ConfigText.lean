import Mathlib.Data.List.DropRight
import RouteFlow.Isl
import RouteFlow.Messages

/-!
# The configuration files

`rfserver/rftable.py`: `RFConfig`, `RFISLConf` and `RFFPConf` read one entry from each line after the header.
A comment is cut off first. What is left of it are the blanks before the `#`, at the end of the last field.
-/

namespace RouteFlow

open Bytes Store

namespace Py

/-- `str.strip` without arguments. -/
def strip (t : Text) : Text := (t.dropWhile isSpace).rdropWhile isSpace

/-- `int(t, base)`. A sign may be followed by blanks, and a hexadecimal number may begin with `0x`. -/
def intBase (base : Nat) (t : Text) : Option Int :=
  let (neg, t) := takeSign (strip t)
  let t := t.dropWhile isSpace
  let t := if base = 16 ∧ (t.take 2 = ['0', 'x'] ∨ t.take 2 = ['0', 'X']) then t.drop 2 else t
  if t = [] then none else (numeral base t).map fun n => if neg then -(n : Int) else n

/-- Every line keeps its newline. -/
def readlines : Text → List Text
  | [] => []
  | c :: t =>
    if c = '\n' then [c] :: readlines t
    else
      match readlines t with
      | [] => [[c]]
      | line :: lines => (c :: line) :: lines

def stripNewlines (t : Text) : Text := (t.dropWhile fun c => c == '\n').rdropWhile fun c => c == '\n'

end Py

namespace ConfigText

open Py

/-! ## The parsers -/

/-- `line.strip("\n").partition("#")[0].split(",")` -/
def fields (line : Text) : List Text := ((stripNewlines line).takeWhile fun c => c != '#').splitOn ','

/-- A line of blanks is skipped. -/
def skipped : List Text → Bool
  | [] => true
  | [field] => strip field == []
  | _ => false

/-- The two texts are those around the fields of the line. -/
structure SyntaxError where
  message : String
  conf : List Text
  expected : String
deriving DecidableEq

/-- What the three parsers differ in. `entry` is `none` for whatever the `except` catches. -/
structure Parser (α : Type) where
  entry : List Text → Option α
  message : String
  expected : String

/-- The loop over the lines. The first one that does not parse raises `SyntaxError`. -/
def Parser.setEntries {α : Type} (p : Parser α) : List (List Text) → Except SyntaxError (List α)
  | [] => .ok []
  | conf :: confs =>
    if skipped conf then p.setEntries confs
    else
      match p.entry conf with
      | none => .error ⟨p.message, conf, p.expected⟩
      | some e => (p.setEntries confs).map fun entries => e :: entries

/-- The first line is the header. -/
def Parser.parse {α : Type} (p : Parser α) (text : Text) : Except SyntaxError (List α) :=
  p.setEntries (((readlines text).drop 1).map fields)

/-- The fields as they are read. A negative number is accepted. -/
structure RFConfigEntry where
  vmId : Int
  vmPort : Int
  ctId : Int
  dpId : Int
  dpPort : Int
deriving DecidableEq

def RFConfig : Parser RFConfigEntry where
  entry
    | [a, b, c, d, e] =>
      do return ⟨← intBase 16 a, ← intBase 10 b, ← intBase 10 c, ← intBase 16 d, ← intBase 10 e⟩
    | _ => none
  message := "Invalid configuration line "
  expected := "vm_id,vm_port,ct_id,dp_id,dp_port"

/-- The addresses are kept as they stand in the line. -/
structure RFISLConfEntry where
  vmId : Int
  ctId : Int
  dpId : Int
  dpPort : Int
  ethAddr : Text
  remCt : Int
  remId : Int
  remPort : Int
  remEthAddr : Text
deriving DecidableEq

def RFISLConf : Parser RFISLConfEntry where
  entry
    | [a, b, c, d, e, f, g, h, i] => do
      return ⟨← intBase 16 a, ← intBase 10 b, ← intBase 16 c, ← intBase 10 d, e, ← intBase 10 f,
        ← intBase 16 g, ← intBase 10 h, i⟩
    | _ => none
  message := "Invalid isl configuration line "
  expected := "vm_id,ct_id,dp_id,dp_port,eth_addr,rem_ct,rem_id,rem_port,rem_eth_addr"

structure RFFPConfEntry where
  ctId : Int
  dpId : Int
  dpPort : Int
  dp0Port : Int
deriving DecidableEq

def RFFPConf : Parser RFFPConfEntry where
  entry
    | [a, b, c, d] => do return ⟨← intBase 10 a, ← intBase 16 b, ← intBase 10 c, ← intBase 10 d⟩
    | _ => none
  message := "Invalid fastpath configuration line "
  expected := "ct_id,dp_id,dp_port,dp0_port"

/-! ## Edited files -/

abbrev Line := { t : Text // '\n' ∉ t }

abbrev Blanks := { t : Text // ∀ c ∈ t, isSpace c = true ∧ c ≠ '\n' }

/-- A line that stays, one that gets a comment, and a new one: blank, or nothing but a comment. -/
inductive Edit
  | keep (line : Line)
  | comment (line : Line) (blanks : Blanks) (text : Line)
  | insert (blanks : Blanks) (text : Option Line)

def Edit.before : Edit → Option Text
  | .keep line => some line.val
  | .comment line _ _ => some line.val
  | .insert _ _ => none

def Edit.after : Edit → Text
  | .keep line => line.val
  | .comment line blanks text => line.val ++ blanks.val ++ '#' :: text.val
  | .insert blanks none => blanks.val
  | .insert blanks (some text) => blanks.val ++ '#' :: text.val

def before (header : Line) (edits : List Edit) : Text :=
  ['\n'].intercalate (header.val :: edits.filterMap Edit.before)

def after (header : Line) (edits : List Edit) : Text :=
  ['\n'].intercalate (header.val :: edits.map Edit.after)

theorem not_mem_of_mem_splitOn {sep : Char} {t l : Text} (h : l ∈ t.splitOn sep) : sep ∉ l := by
  induction t generalizing l with
  | nil =>
    rw [List.splitOn_nil, List.mem_singleton] at h
    simp [h]
  | cons c t ih =>
    rw [List.splitOn_cons_eq_if_modifyHead] at h
    split at h
    · rw [List.mem_cons] at h
      rcases h with rfl | h
      · exact List.not_mem_nil
      · exact ih h
    · rename_i hc
      obtain ⟨first, rest, hsplit⟩ := List.exists_cons_of_ne_nil (List.splitOn_ne_nil sep t)
      rw [hsplit, List.modifyHead_cons, List.mem_cons] at h
      rcases h with rfl | h
      · have hfirst := ih (hsplit ▸ List.mem_cons_self : first ∈ t.splitOn sep)
        simpa [hfirst] using fun heq : sep = c => hc (by simp [heq])
      · exact ih (hsplit ▸ List.mem_cons_of_mem first h)

/-- Every text is a header and lines. -/
theorem exists_before (text : Text) :
    ∃ (header : Line) (lines : List Line), before header (lines.map Edit.keep) = text := by
  obtain ⟨first, rest, hsplit⟩ := List.exists_cons_of_ne_nil (List.splitOn_ne_nil '\n' text)
  have hline : ∀ l ∈ first :: rest, '\n' ∉ l := fun l hl => not_mem_of_mem_splitOn (hsplit ▸ hl)
  obtain ⟨lines, hlines⟩ : ∃ lines : List Line, lines.map Subtype.val = rest :=
    CanLift.prf rest fun l hl => hline l (List.mem_cons_of_mem _ hl)
  refine ⟨⟨first, hline first List.mem_cons_self⟩, lines, ?_⟩
  have hbefore : (lines.map Edit.keep).filterMap Edit.before = rest := by
    rw [List.filterMap_map, ← hlines, ← List.filterMap_eq_map]
    rfl
  rw [before, hbefore, ← hsplit, List.intercalate_splitOn]

/-! ## Lines of a text -/

theorem readlines_line {line : Text} (h : '\n' ∉ line) (rest : Text) :
    readlines (line ++ '\n' :: rest) = (line ++ ['\n']) :: readlines rest := by
  induction line with
  | nil => simp [readlines]
  | cons c line ih =>
    rw [List.mem_cons, not_or] at h
    rw [List.cons_append, readlines, if_neg (Ne.symm h.1), ih h.2]
    rfl

theorem readlines_last {line : Text} (h : '\n' ∉ line) :
    readlines line = if line = [] then [] else [line] := by
  induction line with
  | nil => rfl
  | cons c line ih =>
    rw [List.mem_cons, not_or] at h
    rw [readlines, if_neg (Ne.symm h.1), ih h.2, if_neg (List.cons_ne_nil _ _)]
    by_cases hline : line = []
    · rw [if_pos hline, hline]
    · rw [if_neg hline]

theorem dropWhile_newline {line : Text} (h : '\n' ∉ line) : (line.dropWhile fun c => c == '\n') = line := by
  cases line with
  | nil => rfl
  | cons c line =>
    rw [List.mem_cons, not_or] at h
    rw [List.dropWhile_cons_of_neg]
    simp [Ne.symm h.1]

theorem stripNewlines_line {line : Text} (h : '\n' ∉ line) : stripNewlines line = line := by
  rw [stripNewlines, dropWhile_newline h, List.rdropWhile, dropWhile_newline (by simpa using h),
    List.reverse_reverse]

theorem stripNewlines_newline {line : Text} (h : '\n' ∉ line) : stripNewlines (line ++ ['\n']) = line := by
  cases line with
  | nil => rfl
  | cons c line =>
    have hdrop (rest : Text) : ((c :: rest).dropWhile fun c => c == '\n') = c :: rest := by
      apply List.dropWhile_cons_of_neg
      simpa using fun hc : c = '\n' => h (by simp [hc])
    have hline := stripNewlines_line h
    rw [stripNewlines, hdrop] at hline
    rw [stripNewlines, List.cons_append, hdrop, ← List.cons_append,
      List.rdropWhile_concat_pos _ _ _ (by simp), hline]

/-- The fields of a line that has no newline. -/
def lineFields (line : Text) : List Text := (line.takeWhile fun c => c != '#').splitOn ','

theorem fields_line {line : Text} (h : '\n' ∉ line) : fields line = lineFields line := by
  rw [fields, stripNewlines_line h, lineFields]

theorem fields_newline {line : Text} (h : '\n' ∉ line) : fields (line ++ ['\n']) = lineFields line := by
  rw [fields, stripNewlines_newline h, lineFields]

section Parse

variable {α : Type} (p : Parser α)

theorem Parser.setEntries_lines (line : Text) (lines : List Text) (h : ∀ l ∈ line :: lines, '\n' ∉ l) :
    p.setEntries ((readlines (['\n'].intercalate (line :: lines))).map fields) =
      p.setEntries ((line :: lines).map lineFields) := by
  induction lines generalizing line with
  | nil =>
    have hline := h line (by simp)
    rw [List.intercalate_singleton, readlines_last hline]
    by_cases hnil : line = []
    · rw [if_pos hnil, hnil]
      rfl
    · rw [if_neg hnil, List.map_singleton, List.map_singleton, fields_line hline]
  | cons next lines ih =>
    have hline := h line (by simp)
    have hlater := ih next fun l hl => h l (List.mem_cons_of_mem _ hl)
    rw [List.intercalate_cons_cons, List.append_assoc, List.singleton_append, readlines_line hline,
      List.map_cons, fields_newline hline, List.map_cons, Parser.setEntries, Parser.setEntries, hlater]

theorem Parser.parse_lines (header : Text) (lines : List Text) (h : ∀ l ∈ header :: lines, '\n' ∉ l) :
    p.parse (['\n'].intercalate (header :: lines)) = p.setEntries (lines.map lineFields) := by
  have hheader := h header (by simp)
  unfold Parser.parse
  cases lines with
  | nil =>
    rw [List.intercalate_singleton, readlines_last hheader]
    split <;> rfl
  | cons line lines =>
    rw [List.intercalate_cons_cons, List.append_assoc, List.singleton_append, readlines_line hheader,
      List.drop_succ_cons, List.drop_zero]
    exact p.setEntries_lines line lines fun l hl => h l (List.mem_cons_of_mem _ hl)

end Parse

/-! ## Blanks at the end of a line -/

theorem strip_append (t : Text) {blanks : Text} (h : ∀ c ∈ blanks, isSpace c = true) :
    strip (t ++ blanks) = strip t := by
  have hdrop : (blanks.dropWhile isSpace) = [] := List.dropWhile_eq_nil_iff.mpr h
  rw [strip, strip, List.dropWhile_append]
  split
  · rename_i hnil
    rw [List.isEmpty_iff.mp hnil, hdrop]
  · rw [List.rdropWhile, List.rdropWhile, List.reverse_append,
      List.dropWhile_append_of_pos (by simpa using h)]

theorem strip_eq_nil_iff (t : Text) : strip t = [] ↔ ∀ c ∈ t, isSpace c = true := by
  rw [strip, List.rdropWhile_eq_nil_iff]
  constructor
  · intro h
    rw [← List.dropWhile_eq_nil_iff]
    by_contra hne
    have hhead := List.head_dropWhile_not isSpace hne
    rw [h _ (List.head_mem hne)] at hhead
    cases hhead
  · intro h c hc
    exact h c ((List.dropWhile_suffix isSpace).subset hc)

theorem intBase_append (base : Nat) (t : Text) {blanks : Text} (h : ∀ c ∈ blanks, isSpace c = true) :
    intBase base (t ++ blanks) = intBase base t := by
  unfold intBase
  rw [strip_append t h]

theorem splitOn_append (t : Text) {sep : Char} {blanks : Text} (h : sep ∉ blanks) :
    ∃ init last, t.splitOn sep = init ++ [last] ∧ (t ++ blanks).splitOn sep = init ++ [last ++ blanks] := by
  induction t with
  | nil => exact ⟨[], [], rfl, by rw [List.nil_append, List.splitOn_eq_singleton h]; rfl⟩
  | cons c t ih =>
    obtain ⟨init, last, ht, hpad⟩ := ih
    rw [List.cons_append, List.splitOn_cons_eq_if_modifyHead, List.splitOn_cons_eq_if_modifyHead, ht, hpad]
    split
    · exact ⟨[] :: init, last, rfl, rfl⟩
    · cases init with
      | nil => exact ⟨[], c :: last, rfl, rfl⟩
      | cons field init => exact ⟨(c :: field) :: init, last, rfl, rfl⟩

theorem skipped_append (init : List Text) (last : Text) {blanks : Text} (h : ∀ c ∈ blanks, isSpace c = true) :
    skipped (init ++ [last ++ blanks]) = skipped (init ++ [last]) := by
  cases init with
  | nil => simp only [List.nil_append, skipped, strip_append last h]
  | cons field init => cases init <;> rfl

theorem takeWhile_line {line : Text} (h : '#' ∉ line) (rest : Text) :
    ((line ++ rest).takeWhile fun c => c != '#') = line ++ rest.takeWhile fun c => c != '#' := by
  apply List.takeWhile_append_of_pos
  intro c hc
  simpa using fun hsharp : c = '#' => h (hsharp ▸ hc)

theorem lineFields_line {line : Text} (h : '#' ∉ line) : lineFields line = line.splitOn ',' := by
  have hcut := takeWhile_line h []
  rw [List.append_nil, List.takeWhile_nil, List.append_nil] at hcut
  rw [lineFields, hcut]

theorem lineFields_comment {line : Text} (h : '#' ∉ line) (text : Text) :
    lineFields (line ++ '#' :: text) = line.splitOn ',' := by
  rw [lineFields, takeWhile_line h, List.takeWhile_cons_of_neg (by simp), List.append_nil]

theorem lineFields_commented {line : Text} (h : '#' ∈ line) (rest : Text) :
    lineFields (line ++ rest) = lineFields line := by
  obtain ⟨a, b, rfl, hsharp⟩ := List.eq_append_cons_of_mem h
  rw [List.append_assoc, List.cons_append, lineFields_comment hsharp, lineFields_comment hsharp]

theorem skipped_splitOn (line : Text) : skipped (line.splitOn ',') = true ↔ ∀ c ∈ line, isSpace c = true := by
  by_cases hcomma : ',' ∈ line
  · obtain ⟨a, b, rfl⟩ := List.append_of_mem hcomma
    obtain ⟨field, fields, ha⟩ := List.exists_cons_of_ne_nil (List.splitOn_ne_nil ',' a)
    obtain ⟨field', fields', hb⟩ := List.exists_cons_of_ne_nil (List.splitOn_ne_nil ',' b)
    rw [List.splitOn_append_cons_self, ha, hb]
    refine iff_of_false ?_ fun hspace => ?_
    · cases fields <;> exact Bool.false_ne_true
    · exact absurd (hspace ',' (by simp)) (by decide)
  · rw [List.splitOn_eq_singleton hcomma, skipped, beq_iff_eq, strip_eq_nil_iff]

/-! ## Comments and blank lines -/

theorem Blanks.isSpace (blanks : Blanks) :
    ∀ c ∈ blanks.val, isSpace c = true := fun c hc => (blanks.property c hc).1

theorem Blanks.not_mem (blanks : Blanks) {c : Char} (h : RouteFlow.isSpace c = false) : c ∉ blanks.val := by
  intro hc
  rw [blanks.isSpace c hc] at h
  cases h

theorem Edit.before_line (e : Edit) {l : Text} (h : e.before = some l) : '\n' ∉ l := by
  cases e with
  | keep line => exact Option.some.inj h ▸ line.property
  | comment line blanks text => exact Option.some.inj h ▸ line.property
  | insert blanks text => cases h

theorem Edit.after_line (e : Edit) : '\n' ∉ e.after := by
  have hblanks (blanks : Blanks) : '\n' ∉ blanks.val := fun h => (blanks.property _ h).2 rfl
  cases e with
  | keep line => exact line.property
  | comment line blanks text => simp [Edit.after, line.property, hblanks blanks, text.property]
  | insert blanks text =>
    cases text with
    | none => exact hblanks blanks
    | some text => simp [Edit.after, hblanks blanks, text.property]

/-- With the blanks `Q` allows, the entry of a line stays the same. With others it becomes another one. -/
def Parser.Keeps {α : Type} (p : Parser α) (Q : Text → Prop) : Prop :=
  ∀ (init : List Text) (last : Text) (blanks : Blanks) (e : α), p.entry (init ++ [last]) = some e →
    ∃ e', p.entry (init ++ [last ++ blanks.val]) = some e' ∧ (e' = e ↔ Q blanks.val)

/-- There was a comment before, there was nothing before it, or the blanks are allowed. -/
def Edit.Harmless (Q : Text → Prop) : Edit → Prop
  | .keep _ => True
  | .comment line blanks _ => '#' ∈ line.val ∨ (∀ c ∈ line.val, RouteFlow.isSpace c = true) ∨ Q blanks.val
  | .insert _ _ => True

section Edits

variable {α : Type} {p : Parser α} {Q : Text → Prop}

theorem Parser.setEntries_skipped {conf : List Text} (h : skipped conf = true) (confs : List (List Text)) :
    p.setEntries (conf :: confs) = p.setEntries confs := by
  rw [Parser.setEntries, if_pos h]

theorem Parser.setEntries_cons {conf : List Text} (h : skipped conf = false) (confs : List (List Text))
    (es : List α) :
    p.setEntries (conf :: confs) = .ok es ↔
      ∃ e rest, p.entry conf = some e ∧ p.setEntries confs = .ok rest ∧ es = e :: rest := by
  rw [Parser.setEntries, if_neg (by simp [h])]
  cases p.entry conf with
  | none => simp
  | some e =>
    cases p.setEntries confs with
    | error err => simp [Except.map]
    | ok rest => simp [Except.map, eq_comm]

theorem Parser.setEntries_same {conf : List Text} {confs confs' : List (List Text)} {entries : List α}
    (h : p.setEntries (conf :: confs) = .ok entries) :
    ∃ rest, p.setEntries confs = .ok rest ∧
      (p.setEntries (conf :: confs') = .ok entries ↔ p.setEntries confs' = .ok rest) := by
  by_cases hskip : skipped conf = true
  · rw [setEntries_skipped hskip] at h
    exact ⟨entries, h, by rw [setEntries_skipped hskip]⟩
  · rw [Bool.not_eq_true] at hskip
    obtain ⟨x, rest, hx, hrest, rfl⟩ := (setEntries_cons hskip _ _).mp h
    refine ⟨rest, hrest, ?_⟩
    rw [setEntries_cons hskip, hx]
    simp

theorem Parser.Keeps.comment (hp : p.Keeps Q) {line : Line} (blanks : Blanks) (text : Line)
    (hsharp : '#' ∉ line.val) {confs confs' : List (List Text)} {entries : List α}
    (h : p.setEntries (lineFields line.val :: confs) = .ok entries) :
    ∃ rest, p.setEntries confs = .ok rest ∧
      (p.setEntries (lineFields (line.val ++ blanks.val ++ '#' :: text.val) :: confs') = .ok entries ↔
        ((∀ c ∈ line.val, RouteFlow.isSpace c = true) ∨ Q blanks.val) ∧ p.setEntries confs' = .ok rest) := by
  have hafter : '#' ∉ line.val ++ blanks.val := by
    rw [List.mem_append, not_or]
    exact ⟨hsharp, blanks.not_mem rfl⟩
  obtain ⟨init, last, hline, hpad⟩ := splitOn_append line.val (blanks.not_mem (c := ',') rfl)
  have hskip := skipped_splitOn line.val
  have hskip' := skipped_append init last blanks.isSpace
  rw [lineFields_line hsharp] at h
  rw [lineFields_comment hafter, hpad]
  rw [hline] at h hskip
  by_cases hblank : ∀ c ∈ line.val, RouteFlow.isSpace c = true
  · have hs := hskip.mpr hblank
    rw [setEntries_skipped hs] at h
    refine ⟨entries, h, ?_⟩
    rw [setEntries_skipped (hskip'.trans hs)]
    exact (and_iff_right (Or.inl hblank)).symm
  · have hs : skipped (init ++ [last]) = false := by
      rw [← Bool.not_eq_true, hskip]
      exact hblank
    obtain ⟨x, rest, hx, hrest, rfl⟩ := (setEntries_cons hs _ _).mp h
    obtain ⟨y, hy, hQ⟩ := hp init last blanks x hx
    refine ⟨rest, hrest, ?_⟩
    rw [setEntries_cons (hskip'.trans hs), hy, or_iff_right hblank, ← hQ]
    constructor
    · rintro ⟨z, rest', hz, hrest', heq⟩
      obtain ⟨rfl, rfl⟩ := List.cons.inj heq
      exact ⟨Option.some.inj hz, hrest'⟩
    · rintro ⟨rfl, hrest'⟩
      exact ⟨y, rest, rfl, hrest', rfl⟩

theorem Parser.Keeps.step (hp : p.Keeps Q) (e : Edit) {confs confs' : List (List Text)} {entries : List α}
    (h : p.setEntries ((e.before.map lineFields).toList ++ confs) = .ok entries) :
    ∃ rest, p.setEntries confs = .ok rest ∧
      (p.setEntries (lineFields e.after :: confs') = .ok entries ↔ e.Harmless Q ∧
        p.setEntries confs' = .ok rest) := by
  cases e with
  | keep line =>
    simp only [Edit.Harmless, true_and]
    exact setEntries_same h
  | insert blanks text =>
    have hskip : skipped (lineFields (Edit.insert blanks text).after) = true := by
      have hsharp : '#' ∉ blanks.val := blanks.not_mem rfl
      cases text with
      | none => rw [Edit.after, lineFields_line hsharp, skipped_splitOn]; exact blanks.isSpace
      | some text => rw [Edit.after, lineFields_comment hsharp, skipped_splitOn]; exact blanks.isSpace
    refine ⟨entries, h, ?_⟩
    rw [setEntries_skipped hskip]
    simp only [Edit.Harmless, true_and]
  | comment line blanks text =>
    by_cases hsharp : '#' ∈ line.val
    · simp only [Edit.Harmless, hsharp, true_or, true_and, Edit.after, List.append_assoc]
      rw [lineFields_commented hsharp]
      exact setEntries_same h
    · simp only [Edit.Harmless, hsharp, false_or]
      exact hp.comment blanks text hsharp h

theorem Parser.Keeps.edited (hp : p.Keeps Q) (header : Line) (edits : List Edit) {entries : List α}
    (h : p.parse (before header edits) = .ok entries) :
    p.parse (after header edits) = .ok entries ↔ ∀ e ∈ edits, e.Harmless Q := by
  have hbefore : ∀ l ∈ header.val :: edits.filterMap Edit.before, '\n' ∉ l := by
    simp only [List.mem_cons, List.mem_filterMap]
    rintro l (rfl | ⟨e, -, he⟩)
    · exact header.property
    · exact e.before_line he
  have hafter : ∀ l ∈ header.val :: edits.map Edit.after, '\n' ∉ l := by
    simp only [List.mem_cons, List.mem_map]
    rintro l (rfl | ⟨e, -, rfl⟩)
    · exact header.property
    · exact e.after_line
  rw [before, p.parse_lines _ _ hbefore] at h
  rw [after, p.parse_lines _ _ hafter]
  clear hbefore hafter
  induction edits generalizing entries with
  | nil => simpa using h
  | cons e edits ih =>
    have hlines : ((e :: edits).filterMap Edit.before).map lineFields =
        (e.before.map lineFields).toList ++ (edits.filterMap Edit.before).map lineFields := by
      rw [List.filterMap_cons]
      cases e.before <;> rfl
    rw [hlines] at h
    obtain ⟨rest, hrest, hstep⟩ := hp.step e h
    rw [List.map_cons, List.map_cons, hstep, List.forall_mem_cons, and_congr_right_iff]
    exact fun _ => ih hrest

end Edits

/-! ## The three parsers -/

theorem RFConfig_fields {conf : List Text} {x : RFConfigEntry} (h : RFConfig.entry conf = some x) :
    ∃ a b c d e, conf = [a, b, c, d] ++ [e] := by
  simp only [RFConfig] at h
  split at h
  · exact ⟨_, _, _, _, _, rfl⟩
  · cases h

theorem RFFPConf_fields {conf : List Text} {x : RFFPConfEntry} (h : RFFPConf.entry conf = some x) :
    ∃ a b c d, conf = [a, b, c] ++ [d] := by
  simp only [RFFPConf] at h
  split at h
  · exact ⟨_, _, _, _, rfl⟩
  · cases h

theorem RFISLConf_fields {conf : List Text} {x : RFISLConfEntry} (h : RFISLConf.entry conf = some x) :
    ∃ a b c d e f g h i, conf = [a, b, c, d, e, f, g, h] ++ [i] := by
  simp only [RFISLConf] at h
  split at h
  · exact ⟨_, _, _, _, _, _, _, _, _, rfl⟩
  · cases h

theorem RFISLConf_remEthAddr {init : List Text} {last : Text} {x : RFISLConfEntry}
    (h : RFISLConf.entry (init ++ [last]) = some x) : x.remEthAddr = last := by
  obtain ⟨a, b, c, d, e, f, g, h', i, hconf⟩ := RFISLConf_fields h
  obtain ⟨rfl, hlast⟩ := List.append_inj' hconf rfl
  simp only [RFISLConf, List.cons_append, List.nil_append, Option.bind_eq_bind, Option.bind_eq_some_iff] at h
  obtain ⟨_, -, _, -, _, -, _, -, _, -, _, -, _, -, heq⟩ := h
  exact Option.some.inj heq ▸ rfl

theorem RFConfig_keeps : RFConfig.Keeps fun _ => True := by
  intro init last blanks x h
  obtain ⟨a, b, c, d, e, hconf⟩ := RFConfig_fields h
  obtain ⟨rfl, hlast⟩ := List.append_inj' hconf rfl
  refine ⟨x, ?_, by simp⟩
  rw [← h]
  simp only [RFConfig, List.cons_append, List.nil_append, intBase_append _ last blanks.isSpace]

theorem RFFPConf_keeps : RFFPConf.Keeps fun _ => True := by
  intro init last blanks x h
  obtain ⟨a, b, c, d, hconf⟩ := RFFPConf_fields h
  obtain ⟨rfl, hlast⟩ := List.append_inj' hconf rfl
  refine ⟨x, ?_, by simp⟩
  rw [← h]
  simp only [RFFPConf, List.cons_append, List.nil_append, intBase_append _ last blanks.isSpace]

theorem RFISLConf_keeps : RFISLConf.Keeps fun blanks => blanks = [] := by
  intro init last blanks x hx
  obtain ⟨a, b, c, d, e, f, g, h, i, hconf⟩ := RFISLConf_fields hx
  obtain ⟨rfl, hlast⟩ := List.append_inj' hconf rfl
  simp only [RFISLConf, List.cons_append, List.nil_append, Option.bind_eq_bind, Option.bind_eq_some_iff]
    at hx ⊢
  obtain ⟨vmId, ha, ctId, hb, dpId, hc, dpPort, hd, remCt, hf, remId, hg, remPort, hh, hx⟩ := hx
  obtain rfl := Option.some.inj hx
  refine ⟨⟨vmId, ctId, dpId, dpPort, e, remCt, remId, remPort, last ++ blanks.val⟩, ?_, ?_⟩
  · exact ⟨vmId, ha, ctId, hb, dpId, hc, dpPort, hd, remCt, hf, remId, hg, remPort, hh, rfl⟩
  · simp

/-- Numbers are read as before. An address keeps the blanks in front of its comment, so the links stay the
same only if no line got any. -/
theorem comments_harmless_iff (header : Line) (edits : List Edit) :
    (∀ entries, RFConfig.parse (before header edits) = .ok entries →
        RFConfig.parse (after header edits) = .ok entries) ∧
      (∀ entries, RFFPConf.parse (before header edits) = .ok entries →
        RFFPConf.parse (after header edits) = .ok entries) ∧
      ∀ entries, RFISLConf.parse (before header edits) = .ok entries →
        (RFISLConf.parse (after header edits) = .ok entries ↔
          ∀ e ∈ edits, e.Harmless fun blanks => blanks = []) := by
  have hall : ∀ e ∈ edits, e.Harmless fun _ => True := by
    intro e _
    cases e <;> simp [Edit.Harmless]
  refine ⟨fun entries h => ?_, fun entries h => ?_, fun entries h => ?_⟩
  · exact (RFConfig_keeps.edited header edits h).mpr hall
  · exact (RFFPConf_keeps.edited header edits h).mpr hall
  · exact RFISLConf_keeps.edited header edits h

/-! ## The tables -/

/-- Each entry becomes a row, in the order of the lines. The tables have no place for a negative number. -/
def table {α ρ : Type} (row : α → Option ρ) (entries : List α) : Option (Table ρ) :=
  (entries.mapM row).map fun rows => rows.foldl Table.add (memoryTable ρ)

/-- The row of the table, if no number is negative. -/
def RFConfigEntry.row (e : RFConfigEntry) : Option RouteFlow.RFConfigEntry := do
  return ⟨← e.vmId.toNat?, ← e.vmPort.toNat?, ← e.ctId.toNat?, ← e.dpId.toNat?, ← e.dpPort.toNat?, none⟩

def RFISLConfEntry.row (e : RFISLConfEntry) : Option RouteFlow.RFISLConfEntry := do
  return ⟨← e.vmId.toNat?, ← e.ctId.toNat?, ← e.dpId.toNat?, ← e.dpPort.toNat?, e.ethAddr,
    ← e.remCt.toNat?, ← e.remId.toNat?, ← e.remPort.toNat?, e.remEthAddr, none, none⟩

def RFFPConfEntry.row (e : RFFPConfEntry) : Option RouteFlow.RFFPConfEntry := do
  return ⟨← e.ctId.toNat?, ← e.dpId.toNat?, ← e.dpPort.toNat?, ← e.dp0Port.toNat?, [], none⟩

/-- The server has read the three files. -/
structure Loads (config islconf fpconf : Text) (cfg : Config) : Prop where
  config : ∃ entries, RFConfig.parse config = .ok entries ∧ table RFConfigEntry.row entries = some cfg.config
  islconf : ∃ entries, RFISLConf.parse islconf = .ok entries ∧ table RFISLConfEntry.row entries =
    some cfg.islconf
  fpconf : ∃ entries, RFFPConf.parse fpconf = .ok entries ∧ table RFFPConfEntry.row entries = some cfg.fpconf

section Tables

variable {α ρ : Type} {row : α → Option ρ} {entries : List α} {t : Table ρ}

theorem rows_foldl_add (vs : List ρ) (t : Table ρ) :
    ((vs.foldl Table.add t).rows.map fun r => r.val) = (t.rows.map fun r => r.val) ++ vs := by
  induction vs generalizing t with
  | nil => simp
  | cons v vs ih => rw [List.foldl_cons, ih]; simp [Table.add]

theorem table_rows (h : table row entries = some t) :
    entries.mapM row = some (t.rows.map fun r => r.val) := by
  obtain ⟨vs, hvs, rfl⟩ := Option.map_eq_some_iff.mp h
  rw [hvs, rows_foldl_add]
  rfl

theorem mem_mapM {vs : List ρ} (h : entries.mapM row = some vs) :
    (∀ e ∈ entries, ∃ v ∈ vs, row e = some v) ∧ ∀ v ∈ vs, ∃ e ∈ entries, row e = some v := by
  induction entries generalizing vs with
  | nil =>
    obtain rfl : [] = vs := by simpa using h
    exact ⟨nofun, nofun⟩
  | cons e entries ih =>
    simp only [List.mapM_cons, Option.bind_eq_bind, Option.bind_eq_some_iff, Option.pure_def,
      Option.some.injEq] at h
    obtain ⟨v, hv, vs, hvs, rfl⟩ := h
    obtain ⟨hto, hfrom⟩ := ih hvs
    simp only [List.forall_mem_cons, List.exists_mem_cons_iff]
    refine ⟨⟨Or.inl hv, fun x hx => Or.inr (hto x hx)⟩, Or.inl hv, fun x hx => Or.inr (hfrom x hx)⟩

theorem Parser.mem_entries {p : Parser α} {conf : List Text} {confs : List (List Text)} (hconf : conf ∈ confs)
    (hskip : skipped conf = false) (h : p.setEntries confs = .ok entries) :
    ∃ e ∈ entries, p.entry conf = some e := by
  induction confs generalizing entries with
  | nil => cases hconf
  | cons first confs ih =>
    by_cases hfirst : skipped first = true
    · rw [setEntries_skipped hfirst] at h
      refine ih ((List.mem_cons.mp hconf).resolve_left ?_) h
      rintro rfl
      rw [hskip] at hfirst
      cases hfirst
    · rw [Bool.not_eq_true] at hfirst
      obtain ⟨x, rest, hx, hrest, rfl⟩ := (setEntries_cons hfirst _ _).mp h
      rcases List.mem_cons.mp hconf with rfl | hconf
      · exact ⟨x, List.mem_cons_self, hx⟩
      · obtain ⟨e, he, hentry⟩ := ih hconf hrest
        exact ⟨e, List.mem_cons_of_mem _ he, hentry⟩

end Tables

theorem RFISLConfEntry.row_addr {e : RFISLConfEntry} {r : RouteFlow.RFISLConfEntry} (h : e.row = some r) :
    r.ethAddr = e.ethAddr ∧ r.remEthAddr = e.remEthAddr := by
  simp only [row, Option.bind_eq_bind, Option.bind_eq_some_iff, Option.pure_def, Option.some.injEq] at h
  obtain ⟨_, -, _, -, _, -, _, -, _, -, _, -, _, -, rfl⟩ := h
  exact ⟨rfl, rfl⟩

theorem Loads.linkMacs_iff {config islconf fpconf : Text} {cfg : Config}
    (h : Loads config islconf fpconf cfg) :
    ∃ entries, RFISLConf.parse islconf = .ok entries ∧
      (cfg.LinkMacs ↔ ∀ e ∈ entries, IsMac e.ethAddr ∧ IsMac e.remEthAddr) := by
  obtain ⟨entries, hparse, htable⟩ := h.islconf
  obtain ⟨hto, hfrom⟩ := mem_mapM (table_rows htable)
  refine ⟨entries, hparse, ?_, ?_⟩
  · intro hmacs e he
    obtain ⟨v, hv, hrow⟩ := hto e he
    obtain ⟨r, hr, rfl⟩ := List.mem_map.mp hv
    obtain ⟨hnear, hfar⟩ := RFISLConfEntry.row_addr hrow
    rw [← hnear, ← hfar]
    exact hmacs r hr
  · intro hmacs r hr
    obtain ⟨e, he, hrow⟩ := hfrom r.val (List.mem_map_of_mem hr)
    obtain ⟨hnear, hfar⟩ := RFISLConfEntry.row_addr hrow
    rw [hnear, hfar]
    exact hmacs e he

theorem not_readable_append (t : Text) {blanks : Blanks} (h : blanks.val ≠ []) :
    ¬ Readable (t ++ blanks.val) := by
  rintro ⟨bytes, hbytes⟩
  obtain ⟨c, hc⟩ := List.exists_mem_of_ne_nil _ h
  have hspace := blanks.isSpace c hc
  unfold Py.etherToBin Py.a2bHex at hbytes
  split at hbytes
  · rename_i l hl
    have hcolon : c ≠ ':' := by
      rintro rfl
      cases hspace
    have hmem : c ∈ (t ++ blanks.val).filter fun c => c != ':' :=
      List.mem_filter.mpr ⟨List.mem_append_right _ hc, by simpa using hcolon⟩
    have hhex := hexVal_of_ofHex hl c hmem
    have hnone : ∀ b ∈ [' ', '\t', '\n', '\x0b', '\x0c', '\r'], hexVal b = none := by
      simp only [List.forall_mem_cons, List.not_mem_nil, false_imp_iff, implies_true, and_true]
      decide
    rw [hnone c (by simpa [RouteFlow.isSpace] using hspace)] at hhex
    cases hhex
  · cases hbytes

/-- A link whose line has blanks before its comment is in the table with an address that `ether_to_bin`
does not take. -/
theorem Loads.commented {config fpconf : Text} {header : Line} {lines : List Line} {cfg : Config}
    (h : Loads config (['\n'].intercalate ((header :: lines).map Subtype.val)) fpconf cfg) {line : Line}
    {blanks : Blanks} {comment : Text}
    (hline : ∃ l ∈ lines, l.val = line.val ++ blanks.val ++ '#' :: comment) (hsharp : '#' ∉ line.val)
    (hlink : ¬ ∀ c ∈ line.val, RouteFlow.isSpace c = true) (hblanks : blanks.val ≠ []) :
    ∃ r ∈ cfg.islconf.rows, ¬ Readable r.val.remEthAddr := by
  obtain ⟨entries, hparse, htable⟩ := h.islconf
  have hplain : ∀ l ∈ header.val :: lines.map Subtype.val, '\n' ∉ l := by
    simp only [List.forall_mem_cons, List.forall_mem_map]
    exact ⟨header.property, fun l _ => l.property⟩
  rw [List.map_cons, RFISLConf.parse_lines _ _ hplain] at hparse
  obtain ⟨l, hl, heq⟩ := hline
  have hafter : '#' ∉ line.val ++ blanks.val := by
    rw [List.mem_append, not_or]
    exact ⟨hsharp, blanks.not_mem rfl⟩
  obtain ⟨init, last, hfields, hpad⟩ := splitOn_append line.val (blanks.not_mem (c := ',') rfl)
  have hconf : lineFields l.val = init ++ [last ++ blanks.val] := by
    rw [heq, lineFields_comment hafter, hpad]
  have hskip : skipped (init ++ [last ++ blanks.val]) = false := by
    rw [skipped_append init last blanks.isSpace, ← hfields, ← Bool.not_eq_true, skipped_splitOn]
    exact hlink
  have hmem : init ++ [last ++ blanks.val] ∈ (lines.map Subtype.val).map lineFields :=
    hconf ▸ List.mem_map_of_mem (List.mem_map_of_mem hl)
  obtain ⟨e, he, hentry⟩ := Parser.mem_entries hmem hskip hparse
  obtain ⟨v, hv, hrow⟩ := (mem_mapM (table_rows htable)).1 e he
  obtain ⟨r, hr, rfl⟩ := List.mem_map.mp hv
  refine ⟨r, hr, ?_⟩
  rw [(RFISLConfEntry.row_addr hrow).2, RFISLConf_remEthAddr hentry]
  exact not_readable_append last hblanks

/-- The link of `rftest/islconf.csv`. -/
def islLine : Line := ⟨"12A0A0A0A0A0,0,0x99,2,66:FD:B5:BE:39:77,0,0x9a,2,6E:71:60:A9:B9:8D".toList,
    by decide +kernel⟩

def islHeader : Line :=
  ⟨"vm_id,ct_id,dp_id,dp_port,eth_addr,rem_ct,rem_id,rem_port,rem_eth_addr".toList, by decide +kernel⟩

def islEntry (remEthAddr : String) : RFISLConfEntry :=
  ⟨0x12A0A0A0A0A0, 0, 0x99, 2, "66:FD:B5:BE:39:77".toList, 0, 0x9a, 2, remEthAddr.toList⟩

def uplink (blanks : Blanks) : List Edit :=
  [.comment islLine blanks ⟨" uplink".toList, by decide +kernel⟩, .insert ⟨[], by simp⟩ none]

theorem uplink_before (blanks : Blanks) :
    RFISLConf.parse (before islHeader (uplink blanks)) = .ok [islEntry "6E:71:60:A9:B9:8D"] := by
  have hsame : before islHeader (uplink blanks) = before islHeader (uplink ⟨[], by simp⟩) := rfl
  rw [hsame]
  decide +kernel

theorem comments_harmless_iff_adjacent :
    RFISLConf.parse (before islHeader (uplink ⟨[], by simp⟩)) = .ok [islEntry "6E:71:60:A9:B9:8D"] ∧
      RFISLConf.parse (after islHeader (uplink ⟨[], by simp⟩)) = .ok [islEntry "6E:71:60:A9:B9:8D"] := by
  have hbefore := uplink_before ⟨[], by simp⟩
  refine ⟨hbefore, ((comments_harmless_iff _ _).2.2 _ hbefore).mpr ?_⟩
  simp [uplink, Edit.Harmless]

def twoBlanks : Blanks where
  val := [' ', ' ']
  property := by
    intro c hc
    have hblank : c = ' ' := by simpa using hc
    rw [hblank]
    decide

/-- Two blanks before the comment, and the remote address can not be decoded any more. -/
theorem comment_changes_link :
    RFISLConf.parse (before islHeader (uplink twoBlanks)) = .ok [islEntry "6E:71:60:A9:B9:8D"] ∧
      RFISLConf.parse (after islHeader (uplink twoBlanks)) = .ok [islEntry "6E:71:60:A9:B9:8D  "] ∧
      islEntry "6E:71:60:A9:B9:8D  " ≠ islEntry "6E:71:60:A9:B9:8D" ∧
      etherToBin (islEntry "6E:71:60:A9:B9:8D").remEthAddr = .ok [0x6e, 0x71, 0x60, 0xa9, 0xb9, 0x8d] ∧
      etherToBin (islEntry "6E:71:60:A9:B9:8D  ").remEthAddr = .error .typeError := by
  refine ⟨uplink_before twoBlanks, ?_⟩
  decide +kernel

end ConfigText

end RouteFlow
