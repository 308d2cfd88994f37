import TestExplorer.Marker
import TestExplorer.Text.Lines

set_option autoImplicit false

namespace TestExplorer

-- Lines count from zero.
inductive Event where
  | suiteBegin (name : String) (line : Nat)
  | suiteEnd (line : Nat)
  | testCase (name : String) (line : Nat)
  deriving DecidableEq

inductive Fault where
  | missingArgument
  | emptyName
  deriving DecidableEq

structure Warning where
  fault : Fault
  marker : Marker
  line : Nat
  text : String
  deriving DecidableEq

def Fault.description : Fault → String
  | .missingArgument => "has no argument"
  | .emptyName => "has an empty name"

-- Shown lines count from one.
def Warning.message (w : Warning) : String :=
  s!"line {w.line + 1}: \x60{w.marker.label}\x60 marker {w.fault.description}"

inductive ScanItem where
  | event (e : Event)
  | warning (w : Warning)
  deriving DecidableEq

def Event.line : Event → Nat
  | .suiteBegin _ line => line
  | .suiteEnd line => line
  | .testCase _ line => line

def ScanItem.line : ScanItem → Nat
  | .event e => e.line
  | .warning w => w.line

structure ScanStep where
  item : ScanItem
  inSuite : Bool
  deriving DecidableEq

def namedMarker (m : Marker) (line : Nat) (text : List Char) : Except Warning String :=
  match m.argument? text with
  | some [] => .error ⟨.emptyName, m, line, String.ofList text⟩
  | some name => .ok (String.ofList name)
  | none => .error ⟨.missingArgument, m, line, String.ofList text⟩

def scanLine (inSuite : Bool) (line : Nat) (text : List Char) : Option ScanStep :=
  if Text.occurs Marker.suiteBegin.literal.toList text then
    match namedMarker .suiteBegin line text with
    | .ok name => some ⟨.event (.suiteBegin name line), true⟩
    | .error w => some ⟨.warning w, inSuite⟩
  else if Text.occurs Marker.suiteEnd.literal.toList text then
    some ⟨.event (.suiteEnd line), false⟩
  else if inSuite && Marker.testCase.literal.toList.isPrefixOf (Text.trimStart text) then
    match namedMarker .testCase line text with
    | .ok name => some ⟨.event (.testCase name line), inSuite⟩
    | .error w => some ⟨.warning w, inSuite⟩
  else none

def scanFrom (inSuite : Bool) (line : Nat) : List (List Char) → List ScanStep
  | [] => []
  | text :: rest =>
    match scanLine inSuite line text with
    | none => scanFrom inSuite (line + 1) rest
    | some step => step :: scanFrom step.inSuite (line + 1) rest

def scan (source : String) : List ScanStep :=
  scanFrom false 0 (Text.lines source.toList)

def inSuiteAfter (steps : List ScanStep) : Bool :=
  (steps.getLast?.map (·.inSuite)).getD false

end TestExplorer
