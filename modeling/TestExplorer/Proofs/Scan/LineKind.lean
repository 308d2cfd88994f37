import TestExplorer.Proofs.Scan.Lines
import TestExplorer.Scan

set_option autoImplicit false

namespace TestExplorer

namespace Marker

def name? (m : Marker) (text : List Char) : Option String :=
  match m.argument? text with
  | some [] => none
  | some (c :: rest) => some (String.ofList (c :: rest))
  | none => none

def complaint (m : Marker) (line : Nat) (text : List Char) : Warning where
  fault := if m.argument? text = some [] then .emptyName else .missingArgument
  marker := m
  line := line
  text := String.ofList text

end Marker

theorem namedMarker_eq (m : Marker) (line : Nat) (text : List Char) :
    namedMarker m line text =
      match m.name? text with
      | some name => .ok name
      | none => .error (m.complaint line text) := by
  unfold namedMarker Marker.name? Marker.complaint
  cases m.argument? text with
  | none => rfl
  | some name => cases name <;> rfl

/-- What a line is, the first kind that fits. The name of a malformed marker is missing. -/
inductive LineKind where
  | opening (name : Option String)
  | closing
  | test (name : Option String)
  | plain
  deriving DecidableEq

namespace LineKind

def of (text : List Char) : LineKind :=
  if Text.Occurs Marker.suiteBegin.literal.toList text then .opening (Marker.suiteBegin.name? text)
  else if Text.Occurs Marker.suiteEnd.literal.toList text then .closing
  else if Marker.testCase.literal.toList <+: Text.trimStart text then
    .test (Marker.testCase.name? text)
  else .plain

def unit? : LineKind → Option String
  | opening name => name
  | _ => none

def test? : LineKind → Option String
  | test name => name
  | _ => none

def isDirective : LineKind → Bool
  | opening _ => true
  | closing => true
  | _ => false

def isMalformed : LineKind → Bool
  | opening none => true
  | test none => true
  | _ => false

theorem unit?_eq_none (kind : LineKind) (inner : kind.isDirective = false) : kind.unit? = none := by
  cases kind with
  | opening name => contradiction
  | _ => rfl

def step (inSuite : Bool) (line : Nat) (text : List Char) : LineKind → Option ScanStep
  | opening (some name) => some ⟨.event (.suiteBegin name line), true⟩
  | opening none => some ⟨.warning (Marker.suiteBegin.complaint line text), inSuite⟩
  | closing => some ⟨.event (.suiteEnd line), false⟩
  | test (some name) => if inSuite then some ⟨.event (.testCase name line), true⟩ else none
  | test none =>
    if inSuite then some ⟨.warning (Marker.testCase.complaint line text), true⟩ else none
  | plain => none

theorem line_of_step {inSuite : Bool} {line : Nat} {text : List Char} {kind : LineKind}
    {found : ScanStep} (stepped : kind.step inSuite line text = some found) :
    found.item.line = line := by
  cases kind with
  | opening name => cases name <;> cases stepped <;> rfl
  | closing => cases stepped; rfl
  | test name => cases inSuite <;> cases name <;> cases stepped <;> rfl
  | plain => cases stepped

end LineKind

theorem scanLine_eq (inSuite : Bool) (line : Nat) (text : List Char) :
    scanLine inSuite line text = (LineKind.of text).step inSuite line text := by
  unfold scanLine LineKind.of
  simp only [Text.occurs_iff, namedMarker_eq]
  by_cases opens : Text.Occurs Marker.suiteBegin.literal.toList text
  · cases Marker.suiteBegin.name? text <;> simp [opens, LineKind.step]
  by_cases closes : Text.Occurs Marker.suiteEnd.literal.toList text
  · simp [opens, closes, LineKind.step]
  by_cases declares : Marker.testCase.literal.toList <+: Text.trimStart text
  · cases inSuite <;> cases Marker.testCase.name? text <;>
      simp [opens, closes, declares, LineKind.step]
  · simp [opens, closes, declares, LineKind.step]

/-! ## Carriage returns at the end of a line -/

theorem Marker.return_not_mem_literal (m : Marker) : '\r' ∉ m.literal.toList := by
  cases m <;> decide

theorem Marker.literal_ne_nil (m : Marker) : m.literal.toList ≠ [] := by
  cases m <;> decide

theorem Marker.argumentText_append_return (state : Quoting) (text : List Char) :
    argumentText state (text ++ ['\r']) = argumentText state text := by
  induction text generalizing state with
  | nil => simp [argumentText, isTerminator]
  | cons c rest ih => simp only [List.cons_append, argumentText, ih]

theorem Marker.argument?_append_return (m : Marker) (text : List Char) :
    m.argument? (text ++ ['\r']) = m.argument? text := by
  rw [argument?, argument?, Text.cut?_append_singleton m.literal_ne_nil m.return_not_mem_literal]
  cases Text.cut? m.literal.toList text with
  | none => rfl
  | some parts => simp only [Option.map_some, argumentText_append_return]

theorem Text.prefix_trimStart_append_return {piece : List Char} (absent : '\r' ∉ piece)
    (text : List Char) :
    piece <+: trimStart (text ++ ['\r']) ↔ piece <+: trimStart text := by
  rw [trimStart, List.dropWhile_append, ← trimStart]
  cases start : trimStart text with
  | nil => simp [isBlank]
  | cons c rest => exact prefix_append_singleton_iff absent (c :: rest)

theorem LineKind.of_append_return (text : List Char) :
    of (text ++ ['\r']) = of text := by
  have occurs (m : Marker) := Text.occurs_append_singleton_iff m.literal_ne_nil m.return_not_mem_literal text
  have declares :=
    Text.prefix_trimStart_append_return Marker.testCase.return_not_mem_literal text
  simp only [of, occurs, declares, Marker.name?, Marker.argument?_append_return]

theorem Marker.argument?_read (m : Marker) {line text : List Char} (read : Text.ReadAs line text) :
    m.argument? text = m.argument? line := by
  rcases read with rfl | rfl
  · rfl
  · exact (m.argument?_append_return text).symm

theorem LineKind.of_read {line text : List Char} (read : Text.ReadAs line text) :
    of text = of line := by
  rcases read with rfl | rfl
  · rfl
  · exact (of_append_return text).symm

end TestExplorer
