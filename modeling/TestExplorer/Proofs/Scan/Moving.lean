import TestExplorer.Proofs.Scan.Grouping
import TestExplorer.Proofs.Scan.LineKind

set_option autoImplicit false

namespace TestExplorer

section

variable (move : Nat → Nat)

def Event.moved : Event → Event
  | .suiteBegin name line => .suiteBegin name (move line)
  | .suiteEnd line => .suiteEnd (move line)
  | .testCase name line => .testCase name (move line)

def TestMark.moved (mark : TestMark) : TestMark :=
  { mark with line := move mark.line }

def UnitMark.moved (unit : UnitMark) : UnitMark :=
  { unit with line := move unit.line, tests := unit.tests.map (TestMark.moved move) }

def Document.moved (d : Document) : Document :=
  { d with units := d.units.map (UnitMark.moved move) }

@[simp] theorem TestMark.moved_id : TestMark.moved id = id := rfl

@[simp] theorem UnitMark.moved_id : UnitMark.moved id = id := by
  funext unit
  simp [moved]

@[simp] theorem Document.moved_id : Document.moved id = id := by
  funext d
  simp [moved]

-- A line that has got a line feed behind it is read without the carriage return at its end.
variable (closed : Option Nat)

def Text.readAgain (line : Nat) (text : List Char) : List Char :=
  if closed = some line then bare text else text

def Warning.shifted (w : Warning) : Warning :=
  { w with
    line := move w.line
    text := if closed = some w.line then String.ofList (Text.bare w.text.toList) else w.text }

def ScanItem.shifted : ScanItem → ScanItem
  | .event e => .event (e.moved move)
  | .warning w => .warning (w.shifted move closed)

def ScanStep.shifted (step : ScanStep) : ScanStep :=
  { step with item := step.item.shifted move closed }

theorem Text.readAs_readAgain (line : Nat) (text : List Char) :
    ReadAs text (readAgain closed line text) := by
  unfold readAgain
  split
  next => exact readAs_bare text
  next => exact .inl rfl

theorem Marker.complaint_shifted (m : Marker) (line : Nat) (text : List Char) :
    m.complaint (move line) (Text.readAgain closed line text) =
      (m.complaint line text).shifted move closed := by
  have read := Text.readAs_readAgain closed line text
  have again : String.ofList (Text.readAgain closed line text) =
      if closed = some line then String.ofList (Text.bare text) else String.ofList text :=
    apply_ite String.ofList _ _ _
  simp only [complaint, m.argument?_read read, again, Warning.shifted, String.toList_ofList]

theorem LineKind.step_shifted (inSuite : Bool) (line : Nat) (text : List Char) (kind : LineKind) :
    kind.step inSuite (move line) (Text.readAgain closed line text) =
      (kind.step inSuite line text).map (ScanStep.shifted move closed) := by
  have warned (m : Marker) := m.complaint_shifted move closed line text
  cases kind with
  | opening name => cases name <;> simp [step, warned, ScanStep.shifted, ScanItem.shifted, Event.moved]
  | closing => rfl
  | test name =>
    cases name <;> cases inSuite <;>
      simp [step, warned, ScanStep.shifted, ScanItem.shifted, Event.moved]
  | plain => rfl

theorem scanLine_shifted (inSuite : Bool) (line : Nat) (text : List Char) :
    scanLine inSuite (move line) (Text.readAgain closed line text) =
      (scanLine inSuite line text).map (ScanStep.shifted move closed) := by
  have kind := LineKind.of_read (Text.readAs_readAgain closed line text)
  rw [scanLine_eq, scanLine_eq, kind, LineKind.step_shifted]

end

namespace Document

variable {move : Nat → Nat} {closed : Option Nat}

theorem spanTests_shifted (items : List ScanItem) :
    spanTests (items.map (ScanItem.shifted move closed)) =
      (spanTests items).map (TestMark.moved move) := by
  induction items with
  | nil => rfl
  | cons item rest ih =>
    cases item with
    | event e =>
      cases e with
      | testCase name line => exact congrArg (TestMark.mk name (move line) :: ·) ih
      | _ => rfl
    | warning w =>
      simp only [List.map_cons, ScanItem.shifted, spanTests, Warning.shifted, ih]
      split <;> rfl

theorem unitsOf_shifted (items : List ScanItem) :
    unitsOf (items.map (ScanItem.shifted move closed)) =
      (unitsOf items).map (UnitMark.moved move) := by
  induction items with
  | nil => rfl
  | cons item rest ih =>
    cases item with
    | event e =>
      cases e with
      | suiteBegin name line =>
        simp only [List.map_cons, ScanItem.shifted, Event.moved, unitsOf, spanTests_shifted, ih]
        rfl
      | _ => exact ih
    | warning w => exact ih

theorem warningsOf_shifted (items : List ScanItem) :
    warningsOf (items.map (ScanItem.shifted move closed)) =
      (warningsOf items).map (Warning.shifted move closed) := by
  rw [warningsOf, List.filterMap_map, warningsOf, List.map_filterMap]
  congr 1
  funext item
  cases item <;> rfl

theorem scan_shifted {path : Path} {source other : String}
    (shifted : TestExplorer.scan other =
      (TestExplorer.scan source).map (ScanStep.shifted move closed)) :
    scan path other =
      { (scan path source).moved move with
        warnings := (scan path source).warnings.map (Warning.shifted move closed) } := by
  have items : (TestExplorer.scan other).map (·.item) =
      ((TestExplorer.scan source).map (·.item)).map (ScanItem.shifted move closed) := by
    rw [shifted, List.map_map, List.map_map]
    rfl
  simp only [scan_eq, items, unitsOf_shifted, warningsOf_shifted, moved]

end Document

end TestExplorer
