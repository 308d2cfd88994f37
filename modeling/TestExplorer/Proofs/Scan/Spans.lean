import Mathlib.Data.List.Range
import TestExplorer.Proofs.Scan.Grouping
import TestExplorer.Proofs.Scan.LineKind

set_option autoImplicit false

namespace TestExplorer

abbrev NumberedKind := LineKind × Nat

def kindsFrom (line : Nat) (texts : List (List Char)) : List NumberedKind :=
  (texts.map LineKind.of).zipIdx line

def testMark? (row : NumberedKind) : Option TestMark :=
  row.1.test?.map fun name => { name, line := row.2 }

def spanBefore (rows : List NumberedKind) : List NumberedKind :=
  rows.takeWhile fun row => !row.1.isDirective

def itemsFrom (inSuite : Bool) (line : Nat) (texts : List (List Char)) : List ScanItem :=
  (scanFrom inSuite line texts).map (·.item)

theorem itemsFrom_cons (inSuite : Bool) (line : Nat) (text : List Char) (rest : List (List Char)) :
    itemsFrom inSuite line (text :: rest) =
      match (LineKind.of text).step inSuite line text with
      | none => itemsFrom inSuite (line + 1) rest
      | some step => step.item :: itemsFrom step.inSuite (line + 1) rest := by
  rw [itemsFrom, scanFrom, scanLine_eq]
  cases (LineKind.of text).step inSuite line text <;> rfl

@[simp] theorem kindsFrom_cons (line : Nat) (text : List Char) (rest : List (List Char)) :
    kindsFrom line (text :: rest) = (LineKind.of text, line) :: kindsFrom (line + 1) rest := rfl

theorem spanBefore_cons (row : NumberedKind) (rest : List NumberedKind) :
    spanBefore (row :: rest) = if row.1.isDirective then [] else row :: spanBefore rest := by
  cases directive : row.1.isDirective <;> simp [spanBefore, directive]

theorem spanBefore_append {before : List NumberedKind}
    (inner : ∀ row ∈ before, row.1.isDirective = false) (rest : List NumberedKind) :
    spanBefore (before ++ rest) = before ++ spanBefore rest :=
  List.takeWhile_append_of_pos fun row member => by simp [inner row member]

namespace Document

theorem spanTests_items (line : Nat) (texts : List (List Char)) :
    spanTests (itemsFrom true line texts) =
      (spanBefore (kindsFrom line texts)).filterMap testMark? := by
  induction texts generalizing line with
  | nil => rfl
  | cons text rest ih =>
    rw [itemsFrom_cons, kindsFrom_cons, spanBefore_cons]
    cases LineKind.of text with
    | opening name => cases name <;> rfl
    | closing => rfl
    | test name =>
      cases name with
      | some name => exact congrArg (_ :: ·) (ih (line + 1))
      | none => exact ih (line + 1)
    | plain => exact ih (line + 1)

def unitsIn : List NumberedKind → List UnitMark
  | [] => []
  | (kind, line) :: rest =>
    match kind.unit? with
    | some name => ⟨name, line, (spanBefore rest).filterMap testMark?⟩ :: unitsIn rest
    | none => unitsIn rest

-- Whether a unit is open decides which test markers count, but not which units there are.
theorem unitsOf_items (inSuite : Bool) (line : Nat) (texts : List (List Char)) :
    unitsOf (itemsFrom inSuite line texts) = unitsIn (kindsFrom line texts) := by
  induction texts generalizing inSuite line with
  | nil => rfl
  | cons text rest ih =>
    rw [itemsFrom_cons, kindsFrom_cons, unitsIn]
    cases LineKind.of text with
    | opening name =>
      cases name with
      | some name =>
        simp only [LineKind.step, LineKind.unit?, unitsOf, spanTests_items, ih]
      | none => exact ih inSuite (line + 1)
    | closing => exact ih false (line + 1)
    | test name => cases inSuite <;> cases name <;> exact ih _ (line + 1)
    | plain => exact ih inSuite (line + 1)

theorem unitsIn_append {before : List NumberedKind}
    (inner : ∀ row ∈ before, row.1.isDirective = false) (rest : List NumberedKind) :
    unitsIn (before ++ rest) = unitsIn rest := by
  induction before with
  | nil => rfl
  | cons row before ih =>
    rw [List.cons_append, unitsIn, row.1.unit?_eq_none (inner row List.mem_cons_self)]
    exact ih fun later member => inner later (List.mem_cons_of_mem row member)

-- The unit that a line opens, where `rows` are all lines of the text.
def unitMark? (rows : List NumberedKind) (row : NumberedKind) : Option UnitMark :=
  row.1.unit?.map fun name =>
    { name, line := row.2, tests := (spanBefore (rows.drop (row.2 + 1))).filterMap testMark? }

theorem unitsIn_kinds (before kinds : List LineKind) :
    unitsIn (kinds.zipIdx before.length) =
      (kinds.zipIdx before.length).filterMap (unitMark? ((before ++ kinds).zipIdx)) := by
  induction kinds generalizing before with
  | nil => rfl
  | cons kind rest ih =>
    have later := ih (before ++ [kind])
    have span : (before ++ kind :: rest).zipIdx.drop (before.length + 1) =
        rest.zipIdx (before.length + 1) := by
      simp [List.zipIdx_append, List.drop_append]
    simp only [List.length_append, List.length_singleton, List.append_assoc,
      List.singleton_append] at later
    rw [List.zipIdx_cons, unitsIn, List.filterMap_cons, unitMark?, span, later]
    cases kind.unit? <;> rfl

end Document

-- An item stands at its line, so no two stand at one.
theorem lines_itemsFrom (inSuite : Bool) (line : Nat) (texts : List (List Char)) :
    ((itemsFrom inSuite line texts).map (·.line)).Sublist (List.range' line texts.length) := by
  induction texts generalizing inSuite line with
  | nil => exact .slnil
  | cons text rest ih =>
    rw [itemsFrom_cons, List.length_cons, List.range'_succ]
    cases stepped : (LineKind.of text).step inSuite line text with
    | none => exact (ih inSuite (line + 1)).cons line
    | some step =>
      simp only [List.map_cons, LineKind.line_of_step stepped]
      exact (ih step.inSuite (line + 1)).cons_cons line

namespace Document

theorem lines_warningsOf (items : List ScanItem) :
    ((warningsOf items).map (·.line)).Sublist (items.map (·.line)) := by
  induction items with
  | nil => exact .slnil
  | cons item rest ih =>
    cases item with
    | event e => exact ih.cons e.line
    | warning w => exact ih.cons_cons w.line

theorem warningsOf_items_eq_nil (inSuite : Bool) (line : Nat) {texts : List (List Char)}
    (wellFormed : ∀ text ∈ texts, (LineKind.of text).isMalformed = false) :
    warningsOf (itemsFrom inSuite line texts) = [] := by
  induction texts generalizing inSuite line with
  | nil => rfl
  | cons text rest ih =>
    have here := wellFormed text List.mem_cons_self
    have later (inSuite : Bool) : warningsOf (itemsFrom inSuite (line + 1) rest) = [] :=
      ih inSuite (line + 1) fun t member => wellFormed t (List.mem_cons_of_mem text member)
    rw [itemsFrom_cons]
    generalize LineKind.of text = kind at here
    cases kind with
    | opening name =>
      cases name with
      | some name => exact later true
      | none => contradiction
    | closing => exact later false
    | test name =>
      cases name with
      | some name => cases inSuite <;> exact later _
      | none => contradiction
    | plain => exact later inSuite

theorem mem_warningsOf (items : List ScanItem) (w : Warning) :
    w ∈ warningsOf items ↔ ScanItem.warning w ∈ items := by
  induction items with
  | nil => simp [warningsOf]
  | cons item rest ih => cases item <;> simp_all [warningsOf]

/-- Scanning a document groups by span. Its units are the lines that open one, each with the tests
declared from there to the next directive, and its warnings are those of the scan, line by line. -/
theorem scan_groups_by_span (path : Path) (source : String) :
    let rows := kindsFrom 0 (Text.lines source.toList)
    let d := scan path source
    d.path = path ∧
      (d.units = rows.filterMap fun (kind, line) => kind.unit?.map fun name =>
        { name, line
          tests := ((rows.drop (line + 1)).takeWhile fun (kind, _) => !kind.isDirective).filterMap
            fun (kind, line) => kind.test?.map fun name => { name, line } }) ∧
      (∀ w, w ∈ d.warnings ↔ ∃ step ∈ TestExplorer.scan source, step.item = .warning w) ∧
      (d.warnings.map (·.line)).Pairwise (· < ·) := by
  intro rows d
  let items := itemsFrom false 0 (Text.lines source.toList)
  have ordered : (items.map (·.line)).Pairwise (· < ·) :=
    List.Pairwise.sublist (lines_itemsFrom false 0 _) List.pairwise_lt_range'
  have parts : d = { path, units := unitsOf items, warnings := warningsOf items } :=
    scan_eq path source
  rw [parts]
  refine ⟨rfl, ?units, fun w => ?warnings, ordered.sublist (lines_warningsOf items)⟩
  case units =>
    rw [unitsOf_items]
    exact unitsIn_kinds [] _
  case warnings =>
    rw [mem_warningsOf]
    exact List.mem_map

-- A begin marker without a name ends the unit before it and opens none.
example :
    (scan (.ofString "/a.pl") ":- begin_tests(a).\ntest(x).\n:- begin_tests().\ntest(y).\n").units =
      [⟨"a", 0, [⟨"x", 1⟩]⟩] := by decide

end Document

end TestExplorer
