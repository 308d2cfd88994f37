import TestExplorer.Failure
import TestExplorer.Text.Quoted

set_option autoImplicit false

namespace TestExplorer

structure Output where
  exitCode : Option Int
  text : String
  deriving DecidableEq

def Output.success (o : Output) : Bool :=
  o.exitCode == some 0

def Output.ofStreams (exitCode : Option Int) (stdout stderr : String) : Output :=
  { exitCode, text := stdout ++ "\n" ++ stderr }

inductive Outcome where
  | passed
  | failed (message : String)
  deriving DecidableEq

namespace Outcome

def isPassed : Outcome → Bool
  | passed => true
  | failed _ => false

def message? : Outcome → Option String
  | passed => none
  | failed message => some message

def ofFailure (f : ProcessFailure) : Outcome :=
  failed f.message

end Outcome

def errorMark : List Char :=
  "ERROR".toList

def firstErrorLine (text : List Char) : Option (List Char) :=
  (Text.lines text).find? errorMark.isPrefixOf

def lastDiagnostic (text : List Char) : Option (List Char) :=
  ((Text.lines text).map Text.trim).reverse.find? (! ·.isEmpty)

-- The exit code counts only where no line opens with the error mark.
def Output.classify (o : Output) : Outcome :=
  match firstErrorLine o.text.toList with
  | some line => .failed (String.ofList (Text.trimEnd line))
  | none =>
    match o.exitCode with
    | some 0 => .passed
    | some code =>
      let detail := ((lastDiagnostic o.text.toList).map String.ofList).getD "no diagnostic output"
      .ofFailure (.exited code detail)
    | none => .ofFailure .terminated

-- When the launcher breaks down, the host says how.
inductive LaunchResult where
  | finished (output : Output)
  | failed (failure : ProcessFailure)
  | panicked (text : String)
  deriving DecidableEq

def LaunchResult.outcome : LaunchResult → Outcome
  | finished output => output.classify
  | failed failure => .ofFailure failure
  | panicked text => .ofFailure (.panicked text)

end TestExplorer
