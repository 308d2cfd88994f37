import TestExplorer.Proofs.Scan.Lines
import TestExplorer.Proofs.Scan.Spans

set_option autoImplicit false

namespace TestExplorer

namespace Marker

/-- The state that a name leaves, unless a terminator outside quotes ends the argument in it. -/
def Quoting.after : Quoting → List Char → Option Quoting
  | state, [] => some state
  | state, c :: rest =>
    if state = .plain ∧ isTerminator c then none else (state.next c).after rest

theorem argumentText_of_after {state : Quoting} {name : List Char} {mark : Char}
    (closed : state.after name = some .plain) (ends : isTerminator mark) (rest : List Char) :
    argumentText state (name ++ mark :: rest) = some name := by
  induction name generalizing state with
  | nil =>
    obtain rfl := Option.some.inj closed
    simp [argumentText, ends]
  | cons c name ih =>
    unfold Quoting.after at closed
    split at closed
    next => contradiction
    next inside => simp [argumentText, inside, ih closed]

end Marker

/-! ## Directives in a text -/

def HasDirective (text : List Char) : Prop :=
  Text.Occurs Marker.suiteBegin.literal.toList text ∨
    Text.Occurs Marker.suiteEnd.literal.toList text

instance (text : List Char) : Decidable (HasDirective text) :=
  inferInstanceAs (Decidable (_ ∨ _))

namespace HasDirective

theorem of_append {before text : List Char} (absent : ':' ∉ before)
    (found : HasDirective (before ++ text)) : HasDirective text :=
  found.imp (.of_append absent) (.of_append absent)

theorem of_append_cons {a b : List Char} {mark : Char} (ends : Marker.isTerminator mark)
    (found : HasDirective (a ++ mark :: b)) : HasDirective a ∨ HasDirective b := by
  have absent : ∀ m : Marker, mark ∉ m.literal.toList := by
    rcases (by simpa [Marker.isTerminator] using ends : mark = ',' ∨ mark = ')') with rfl | rfl <;>
      intro m <;> cases m <;> decide
  rcases found with opens | closes
  · exact (opens.of_append_cons (absent _)).imp .inl .inl
  · exact (closes.of_append_cons (absent _)).imp .inr .inr

end HasDirective

/-! ## What a marker is written with -/

structure ClosedName where
  text : List Char
  written : text ≠ []
  first : ∀ c ∈ text.head?, Text.isBlank c = false
  last : ∀ c ∈ text.getLast?, Text.isBlank c = false
  oneLine : '\n' ∉ text
  undirected : ¬ HasDirective text
  closed : Marker.Quoting.plain.after text = some .plain

structure Tail where
  mark : Char
  rest : List Char
  ends : Marker.isTerminator mark
  oneLine : '\n' ∉ rest
  undirected : ¬ HasDirective rest

structure Indent where
  text : List Char
  blank : ∀ c ∈ text, Text.isBlank c
  oneLine : '\n' ∉ text

structure Filler where
  text : List Char
  oneLine : '\n' ∉ text
  undirected : ¬ HasDirective text
  untested : ¬ Marker.testCase.literal.toList <+: Text.trimStart text

inductive Row where
  | filler (f : Filler)
  | opening (name : ClosedName) (tail : Tail)
  | test (indent : Indent) (name : ClosedName) (tail : Tail)
  | closing (name : ClosedName) (tail : Tail)

namespace Row

def marked (m : Marker) (name : ClosedName) (tail : Tail) : List Char :=
  m.literal.toList ++ (name.text ++ tail.mark :: tail.rest)

def text : Row → List Char
  | filler f => f.text
  | opening name tail => marked .suiteBegin name tail
  | test indent name tail => indent.text ++ marked .testCase name tail
  | closing name tail => marked .suiteEnd name tail

def kind : Row → LineKind
  | filler _ => .plain
  | opening name _ => .opening (some (String.ofList name.text))
  | test _ name _ => .test (some (String.ofList name.text))
  | closing _ _ => .closing

end Row

variable (name : ClosedName) (tail : Tail)

theorem ClosedName.trim_eq : Text.trim name.text = name.text := by
  rw [Text.trim, Text.trimStart_eq_self name.first, Text.trimEnd_eq_self name.last]

theorem ClosedName.undirected_tail : ¬ HasDirective (name.text ++ tail.mark :: tail.rest) := by
  intro found
  rcases HasDirective.of_append_cons tail.ends found with inName | inRest
  · exact name.undirected inName
  · exact tail.undirected inRest

theorem ClosedName.name?_marked {before : List Char} (blank : ∀ c ∈ before, Text.isBlank c)
    (m : Marker) : m.name? (before ++ Row.marked m name tail) = some (String.ofList name.text) := by
  have parted : Text.cut? m.literal.toList (before ++ Row.marked m name tail) =
      some (before, name.text ++ tail.mark :: tail.rest) := by
    have absent : ∀ c ∈ m.literal.toList.head?, c ∉ before := by
      intro c opens member
      have := blank c member
      cases m <;> simp [Marker.literal] at opens <;> subst opens <;> simp [Text.isBlank] at this
    rw [Row.marked, ← List.append_assoc]
    cases m <;> exact Text.cut?_of_head_not_mem (absent _ rfl) _
  have found : m.argument? (before ++ Row.marked m name tail) = some name.text := by
    rw [Marker.argument?, parted]
    simp only [Marker.argumentText_of_after name.closed tail.ends, Option.map_some, name.trim_eq]
  rw [Marker.name?, found]
  cases same : name.text with
  | nil => exact absurd same name.written
  | cons c rest => rfl

namespace Row

theorem not_hasDirective_test {indent : List Char} (blank : ∀ c ∈ indent, Text.isBlank c) :
    ¬ HasDirective (indent ++ marked .testCase name tail) := by
  intro found
  have absent : ':' ∉ indent ++ Marker.testCase.literal.toList := by
    intro member
    rcases List.mem_append.1 member with inside | inside
    · exact absurd (blank _ inside) (by decide)
    · exact absurd inside (by decide)
  rw [marked, ← List.append_assoc] at found
  exact name.undirected_tail tail (.of_append absent found)

theorem not_opens_closing :
    ¬ Text.Occurs Marker.suiteBegin.literal.toList (marked .suiteEnd name tail) := by
  intro found
  have parted : marked .suiteEnd name tail =
      ':' :: ("- end_tests(".toList ++ (name.text ++ tail.mark :: tail.rest)) := rfl
  rw [parted, Text.occurs_iff_isInfix, List.infix_cons_iff] at found
  rcases found with first | later
  · exact absurd first (by simp [Marker.literal])
  · exact name.undirected_tail tail
      (.inl (.of_append (by decide) ((Text.occurs_iff_isInfix _ _).2 later)))

theorem kind_text (row : Row) : LineKind.of row.text = row.kind := by
  cases row with
  | filler f =>
    obtain ⟨opens, closes⟩ := not_or.1 f.undirected
    simp only [LineKind.of, text, kind, opens, closes, f.untested, if_false]
  | opening name tail =>
    have opens : Text.Occurs Marker.suiteBegin.literal.toList (marked .suiteBegin name tail) :=
      ⟨[], _, rfl⟩
    have blank : ∀ c ∈ ([] : List Char), Text.isBlank c := by simp
    have named := name.name?_marked tail blank .suiteBegin
    rw [List.nil_append] at named
    simp only [LineKind.of, text, kind, opens, if_true, named]
  | test indent name tail =>
    obtain ⟨opens, closes⟩ := not_or.1 (not_hasDirective_test name tail indent.blank)
    have declares : Marker.testCase.literal.toList <+:
        Text.trimStart (indent.text ++ marked .testCase name tail) := by
      rw [Text.trimStart_append indent.blank, Text.trimStart_eq_self]
      · exact List.prefix_append _ _
      · intro c first
        obtain rfl := Option.some.inj first
        decide
    simp only [LineKind.of, text, kind, opens, closes, declares, if_true, if_false,
      name.name?_marked tail indent.blank]
  | closing name tail =>
    have closes : Text.Occurs Marker.suiteEnd.literal.toList (marked .suiteEnd name tail) :=
      ⟨[], _, rfl⟩
    simp only [LineKind.of, text, kind, not_opens_closing, closes, if_true, if_false]

end Row

theorem Row.kind_of_read (row : Row) {text : List Char} (read : Text.ReadAs row.text text) :
    LineKind.of text = row.kind := by
  rw [LineKind.of_read read, row.kind_text]

theorem Row.oneLine (row : Row) : '\n' ∉ row.text := by
  have marker (m : Marker) (name : ClosedName) (tail : Tail) : '\n' ∉ marked m name tail := by
    have literal : '\n' ∉ m.literal.toList := by cases m <;> decide
    have mark : '\n' ≠ tail.mark := by
      rintro same
      exact absurd (same ▸ tail.ends) (by decide)
    simp [marked, literal, name.oneLine, mark, tail.oneLine]
  cases row with
  | filler f => exact f.oneLine
  | opening name tail => exact marker _ name tail
  | test indent name tail => simp [text, indent.oneLine, marker]
  | closing name tail => exact marker _ name tail

/-! ## Sheets -/

structure TestSheet where
  before : List Filler
  indent : Indent
  name : ClosedName
  tail : Tail

structure UnitSheet where
  before : List Filler
  name : ClosedName
  tail : Tail
  tests : List TestSheet
  beforeEnd : List Filler
  endTail : Tail

structure Sheet where
  units : List UnitSheet
  after : List Filler

namespace TestSheet

def rows (t : TestSheet) : List Row :=
  t.before.map .filler ++ [.test t.indent t.name t.tail]

-- Where the tests of a unit stand when the first row below its begin marker is `line`.
def marks (line : Nat) : List TestSheet → List TestMark
  | [] => []
  | t :: rest =>
    ⟨String.ofList t.name.text, line + t.before.length⟩ :: marks (line + t.rows.length) rest

end TestSheet

namespace UnitSheet

def body (u : UnitSheet) : List Row :=
  u.tests.flatMap TestSheet.rows ++ u.beforeEnd.map .filler

def rows (u : UnitSheet) : List Row :=
  u.before.map .filler ++ .opening u.name u.tail :: (u.body ++ [.closing u.name u.endTail])

def mark (line : Nat) (u : UnitSheet) : UnitMark where
  name := String.ofList u.name.text
  line := line + u.before.length
  tests := TestSheet.marks (line + u.before.length + 1) u.tests

def marks (line : Nat) : List UnitSheet → List UnitMark
  | [] => []
  | u :: rest => u.mark line :: marks (line + u.rows.length) rest

end UnitSheet

namespace Sheet

def rows (s : Sheet) : List Row :=
  s.units.flatMap UnitSheet.rows ++ s.after.map .filler

def source (s : Sheet) (ended : Bool) : String :=
  String.ofList (Text.joined ended (s.rows.map Row.text))

end Sheet

/-! ## Reading a sheet back -/

def numbered (line : Nat) (rows : List Row) : List NumberedKind :=
  (rows.map Row.kind).zipIdx line

@[simp] theorem numbered_nil (line : Nat) : numbered line [] = [] := rfl

@[simp] theorem numbered_cons (line : Nat) (row : Row) (rest : List Row) :
    numbered line (row :: rest) = (row.kind, line) :: numbered (line + 1) rest := rfl

@[simp] theorem numbered_append (line : Nat) (a b : List Row) :
    numbered line (a ++ b) = numbered line a ++ numbered (line + a.length) b := by
  simp [numbered, List.zipIdx_append]

theorem numbered_inner {rows : List Row} (inner : ∀ row ∈ rows, row.kind.isDirective = false)
    (line : Nat) : ∀ row ∈ numbered line rows, row.1.isDirective = false := by
  intro row member
  obtain ⟨-, -, same⟩ := List.mem_zipIdx member
  rw [same]
  simpa using inner _ (List.getElem_mem _)

theorem inner_fillers (fillers : List Filler) :
    ∀ row ∈ fillers.map Row.filler, row.kind.isDirective = false := by
  simp [Row.kind, LineKind.isDirective]

theorem testMarks_fillers (line : Nat) (fillers : List Filler) :
    (numbered line (fillers.map .filler)).filterMap testMark? = [] := by
  induction fillers generalizing line with
  | nil => rfl
  | cons f rest ih => exact ih (line + 1)

theorem TestSheet.testMarks_rows (line : Nat) (tests : List TestSheet) :
    (numbered line (tests.flatMap rows)).filterMap testMark? = marks line tests := by
  induction tests generalizing line with
  | nil => rfl
  | cons t rest ih =>
    have here : (numbered line t.rows).filterMap testMark? =
        [⟨String.ofList t.name.text, line + t.before.length⟩] := by
      rw [rows, numbered_append, List.filterMap_append, testMarks_fillers]
      simp [Row.kind, testMark?, LineKind.test?]
    rw [List.flatMap_cons, numbered_append, List.filterMap_append, here, ih, marks,
      List.singleton_append]

namespace UnitSheet

theorem inner_body (u : UnitSheet) : ∀ row ∈ u.body, row.kind.isDirective = false := by
  intro row member
  rcases List.mem_append.1 member with inTests | inFillers
  · obtain ⟨t, -, inTest⟩ := List.mem_flatMap.1 inTests
    rcases List.mem_append.1 inTest with inFillers | here
    · exact inner_fillers _ row inFillers
    · rw [List.mem_singleton.1 here]
      rfl
  · exact inner_fillers _ row inFillers

theorem unitsIn_rows (line : Nat) (u : UnitSheet) (rest : List NumberedKind) :
    Document.unitsIn (numbered line u.rows ++ rest) = u.mark line :: Document.unitsIn rest := by
  have body (line : Nat) := numbered_inner u.inner_body line
  rw [rows, numbered_append, List.append_assoc,
    Document.unitsIn_append (numbered_inner (inner_fillers _) line)]
  simp only [List.length_map, numbered_cons, numbered_append, numbered_nil, List.cons_append,
    List.append_assoc, List.nil_append]
  have span (line : Nat) (ending : NumberedKind) (closes : ending.1.isDirective = true) :
      (spanBefore (numbered line u.body ++ ending :: rest)).filterMap testMark? =
        TestSheet.marks line u.tests := by
    rw [spanBefore_append (body line), spanBefore_cons, if_pos closes, List.append_nil,
      UnitSheet.body, numbered_append, List.filterMap_append, TestSheet.testMarks_rows,
      testMarks_fillers, List.append_nil]
  rw [Document.unitsIn]
  simp only [Row.kind, LineKind.unit?]
  rw [span _ _ rfl, Document.unitsIn_append (body _)]
  rfl

end UnitSheet

theorem Sheet.unitsIn_rows (line : Nat) (units : List UnitSheet) (fillers : List Filler) :
    Document.unitsIn (numbered line (units.flatMap UnitSheet.rows ++ fillers.map .filler)) =
      UnitSheet.marks line units := by
  induction units generalizing line with
  | nil =>
    rw [List.flatMap_nil, List.nil_append, ← List.append_nil (numbered _ _),
      Document.unitsIn_append (numbered_inner (inner_fillers _) line)]
    rfl
  | cons u rest ih =>
    rw [List.flatMap_cons, List.append_assoc, numbered_append, u.unitsIn_rows, ih, UnitSheet.marks]

theorem itemsFrom_append_empty (inSuite : Bool) (line : Nat) (texts : List (List Char)) :
    itemsFrom inSuite line (texts ++ [[]]) = itemsFrom inSuite line texts := by
  induction texts generalizing inSuite line with
  | nil => cases inSuite <;> rfl
  | cons text rest ih =>
    rw [List.cons_append, itemsFrom_cons, itemsFrom_cons]
    cases (LineKind.of text).step inSuite line text with
    | none => exact ih inSuite (line + 1)
    | some step => exact congrArg (_ :: ·) (ih step.inSuite (line + 1))

theorem kinds_of_read {rows : List Row} {texts : List (List Char)}
    (read : List.Forall₂ Text.ReadAs (rows.map Row.text) texts) :
    texts.map LineKind.of = rows.map Row.kind := by
  induction rows generalizing texts with
  | nil => cases read; rfl
  | cons row rest ih =>
    cases read with
    | cons first later => rw [List.map_cons, List.map_cons, row.kind_of_read first, ih later]

theorem Row.wellFormed (row : Row) : row.kind.isMalformed = false := by
  cases row <;> rfl

/-- Scanning undoes rendering. What a sheet renders is scanned without warnings, and the scan gives
its units with their tests, in order and each at the line it was rendered on. -/
theorem Document.scan_source (path : Path) (sheet : Sheet) (ended : Bool) :
    Document.scan path (sheet.source ended) =
      { path, units := UnitSheet.marks 0 sheet.units, warnings := [] } := by
  have oneLine : ∀ line ∈ sheet.rows.map Row.text, '\n' ∉ line := by
    intro line member
    obtain ⟨row, -, rfl⟩ := List.mem_map.1 member
    exact row.oneLine
  obtain ⟨texts, read, found⟩ := Text.lines_joined ended oneLine
  have kinds : texts.map LineKind.of = sheet.rows.map Row.kind := kinds_of_read read
  have items : (TestExplorer.scan (sheet.source ended)).map (·.item) = itemsFrom false 0 texts := by
    rw [TestExplorer.scan, Sheet.source, String.toList_ofList]
    rcases found with rfl | rfl
    · rfl
    · exact (itemsFrom_append_empty false 0 _).symm
  have units : Document.unitsOf (itemsFrom false 0 texts) = UnitSheet.marks 0 sheet.units := by
    rw [Document.unitsOf_items, kindsFrom, kinds]
    exact Sheet.unitsIn_rows 0 sheet.units sheet.after
  have warnings : Document.warningsOf (itemsFrom false 0 texts) = [] := by
    apply Document.warningsOf_items_eq_nil
    intro text member
    have known : LineKind.of text ∈ sheet.rows.map Row.kind := kinds ▸ List.mem_map_of_mem member
    obtain ⟨row, -, same⟩ := List.mem_map.1 known
    rw [← same, row.wellFormed]
  rw [Document.scan_eq, items, units, warnings]

-- A name that holds both terminators and a quote.
def quotedName : ClosedName where
  text := "'a, (b\\'\"'".toList
  written := by decide
  first := by simp [Text.isBlank]
  last := by simp [Text.isBlank]
  oneLine := by decide
  undirected := by decide
  closed := by decide

def quotedTestName : ClosedName where
  text := "\"it's)\"".toList
  written := by decide
  first := by simp [Text.isBlank]
  last := by simp [Text.isBlank]
  oneLine := by decide
  undirected := by decide
  closed := by decide

def quotedSheet : Sheet where
  units := [{
    before := [⟨":- module(m, []).".toList, by decide, by decide, by decide⟩]
    name := quotedName
    tail := ⟨',', " [setup(x)]).".toList, by decide, by decide, by decide⟩
    tests := [{
      before := [⟨"% test(no)".toList, by decide, by decide, by decide⟩]
      indent := ⟨" \t".toList, by simp [Text.isBlank], by decide⟩
      name := quotedTestName
      tail := ⟨')', " :- test(x).\r".toList, by decide, by decide, by decide⟩ }]
    beforeEnd := []
    endTail := ⟨')', ".".toList, by decide, by decide, by decide⟩ }]
  after := []

theorem Document.scan_source_quoted :
    quotedSheet.source false =
        ":- module(m, []).\n:- begin_tests('a, (b\\'\"', [setup(x)]).\n% test(no)\n" ++
          " \ttest(\"it's)\") :- test(x).\r\n:- end_tests('a, (b\\'\"')." ∧
      Document.scan (.ofString "/a.pl") (quotedSheet.source false) =
        { path := .ofString "/a.pl"
          units := [⟨"'a, (b\\'\"'", 1, [⟨"\"it's)\"", 3⟩]⟩]
          warnings := [] } :=
  ⟨by decide, Document.scan_source _ quotedSheet false⟩

end TestExplorer
