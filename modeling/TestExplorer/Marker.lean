import TestExplorer.Text.Blank
import TestExplorer.Text.Search

set_option autoImplicit false

namespace TestExplorer

inductive Marker where
  | suiteBegin
  | suiteEnd
  | testCase
  deriving DecidableEq

namespace Marker

def literal : Marker → String
  | suiteBegin => ":- begin_tests("
  | suiteEnd => ":- end_tests("
  | testCase => "test("

def label : Marker → String
  | suiteBegin => "begin_tests"
  | suiteEnd => "end_tests"
  | testCase => "test"

def ofLabel? : String → Option Marker
  | "begin_tests" => some suiteBegin
  | "end_tests" => some suiteEnd
  | "test" => some testCase
  | _ => none

inductive Quoting where
  | plain
  | inside (quote : Char)
  | escaped (quote : Char)
  deriving DecidableEq

def isQuote (c : Char) : Bool :=
  c == '\'' || c == '"' || c == '\x60'

def isTerminator (c : Char) : Bool :=
  c == ',' || c == ')'

def Quoting.next : Quoting → Char → Quoting
  | .plain, c => if isQuote c then .inside c else .plain
  | .inside q, c => if c = '\\' then .escaped q else if c = q then .plain else .inside q
  | .escaped q, _ => .inside q

/-- The text before the first terminator outside quotes. -/
def argumentText : Quoting → List Char → Option (List Char)
  | _, [] => none
  | state, c :: rest =>
    if state = .plain ∧ isTerminator c then some []
    else (argumentText (state.next c) rest).map (c :: ·)

def argument? (m : Marker) (line : List Char) : Option (List Char) :=
  match Text.cut? m.literal.toList line with
  | none => none
  | some (_, rest) => (argumentText .plain rest).map Text.trim

def extract? (m : Marker) (line : String) : Option String :=
  (m.argument? line.toList).map String.ofList

end Marker

end TestExplorer
