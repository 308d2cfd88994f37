import TestExplorer.CommandLine.Listing
import TestExplorer.Interpreter
import TestExplorer.Run.Report

set_option autoImplicit false

namespace TestExplorer

inductive Colour where
  | green
  | red
  | yellow

def Colour.code : Colour → String
  | green => "\x1b[32m"
  | red => "\x1b[31m"
  | yellow => "\x1b[33m"

def Colour.paint (c : Colour) (text : String) : String :=
  c.code ++ text ++ "\x1b[0m"

def Report.summaryLine (r : Report) : String :=
  let part (n : Nat) (c : Colour) (what : String) : List String :=
    if n = 0 then [] else [c.paint s!"{n} {what}"]
  match part r.passed .green "passed" ++ part r.failed .red "failed" ++
      part r.notRun .yellow "not run" with
  | [] => "no tests ran"
  | parts => String.intercalate ", " parts

namespace Duration

def millis (d : Duration) : Nat :=
  d.nanos / 1000000

def seconds (d : Duration) : String :=
  let hundredths := (d.nanos + 5000000) / 10000000
  Text.decimal (hundredths / 100) ++ "." ++ String.ofList (Text.padded 2 (hundredths % 100))

end Duration

structure Console where
  quiet : Bool := false
  verbose : Bool := false
  shown : String := ""
  clock : Duration := ⟨0⟩
  runStarted : Duration := ⟨0⟩
  testStarted : Duration := ⟨0⟩
  killed : Bool := false

namespace Console

def write (c : Console) (text : String) : Console :=
  if c.quiet || c.killed then c else { c with shown := c.shown ++ text }

def since (c : Console) (start : Duration) : Duration :=
  ⟨c.clock.nanos - start.nanos⟩

def opening (c : Console) (total : Nat) : String :=
  if total = 0 then "No tests collected\n"
  else if c.verbose then s!"collected {total} test{plural total}\n\n"
  else ""

def mark (c : Console) (outcome : Outcome) : String :=
  let (colour, word, sign) : Colour × String × String :=
    if outcome.isPassed then (.green, "PASSED", ".") else (.red, "FAILED", "F")
  if c.verbose then s!"{colour.paint word} ({(c.since c.testStarted).millis}ms)\n"
  else colour.paint sign

def failure (item : WorkItem) : Outcome → String
  | .passed => ""
  | .failed message => s!"\n{Colour.red.paint item.label} ({item.path.display})\n{message}\n"

def closing (c : Console) (report : Report) : String :=
  if report.total = 0 ∧ report.notRun = 0 then ""
  else
    (if c.verbose then "\n" else "\n\n") ++
      s!"====== {report.summaryLine} in {(c.since c.runStarted).seconds}s ======\n"

def observe (c : Console) : RunEvent → Console
  | .runStart total => { c with runStarted := c.clock }.write (c.opening total)
  | .started item =>
    { c with testStarted := c.clock }.write (if c.verbose then item.label ++ " ... " else "")
  | .finished item outcome => c.write (c.mark outcome ++ failure item outcome)
  | .complete report => c.write (c.closing report)

end Console

namespace Signal

def interrupt : Nat := 2

-- Signals that leave the program running: the null signal, a broken pipe and those that are passed
-- over by default.
def harmless : List Nat := [0, 13, 17, 18, 23, 28]

end Signal

def Console.signal (flag : Flag) (s : Engine × Console) (n : Nat) : Engine × Console :=
  let (e, c) := s
  if c.killed ∨ n ∈ Signal.harmless then (e, c)
  else if n = Signal.interrupt then (e.raise flag, c)
  else (e, { c with killed := true })

def Console.launched (flag : Flag) (launch : Launcher.Launch) (s : Engine × Console) :
    Engine × Console :=
  let (e, c) := s
  launch.signals.foldl (signal flag)
    (e, { c with clock := ⟨c.clock.nanos + launch.elapsed.nanos⟩ })

end TestExplorer
