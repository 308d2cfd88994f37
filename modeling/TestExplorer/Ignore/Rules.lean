import TestExplorer.Failure
import TestExplorer.Ignore.Glob
import TestExplorer.Text.Blank
import TestExplorer.Text.Lines
import TestExplorer.Text.Number

set_option autoImplicit false

namespace TestExplorer.Ignore

structure Rule where
  glob : Glob
  keeps : Bool
  onlyDirs : Bool
  deriving DecidableEq

inductive RuleError where
  | glob (line : Nat) (text : String) (error : GlobError)
  | io (line : Nat) (cause : IoError)
  deriving DecidableEq

namespace RuleError

def isIo : RuleError → Bool
  | glob _ _ _ => false
  | io _ _ => true

def message (file : Path) : RuleError → String
  | glob line text error =>
    s!"{file.display}: line {line}: error parsing glob '{text}': {error.message}"
  | io line cause => s!"{file.display}: line {line}: {cause.message}"

end RuleError

def globText (anchored : Bool) (pattern : List Char) : List Char :=
  let anyDepth := "**/".toList
  let pattern :=
    if anchored || pattern.contains '/' || pattern == ['*', '*'] then pattern
    else anyDepth ++ pattern
  if "/**".toList.isSuffixOf pattern then pattern ++ "/*".toList else pattern

-- The rule of a line; comments and blank lines are none.
def Rule.ofLine? (line : List Char) : Option (List Char × Except GlobError Rule) :=
  let line := if ['\\', ' '].isSuffixOf line then line else Text.trimEnd line
  if line.isEmpty || line.head? == some '#' then none
  else
    let (keeps, anchored, body) : Bool × Bool × List Char := match line with
      | '\\' :: '!' :: rest => (false, false, '!' :: rest)
      | '\\' :: '#' :: rest => (false, false, '#' :: rest)
      | '!' :: '/' :: rest => (true, true, rest)
      | '!' :: rest => (true, false, rest)
      | '/' :: rest => (false, true, rest)
      | _ => (false, false, line)
    let onlyDirs := body.getLast? == some '/'
    let body := if onlyDirs then body.dropLast else body
    let body := if onlyDirs && body.getLast? == some '\\' then body.dropLast else body
    some (line, (Glob.ofText? (globText anchored body)).map fun glob => { glob, keeps, onlyDirs })

def byteLines : List UInt8 → List (List UInt8)
  | [] => []
  | 0x0A :: rest => [] :: byteLines rest
  | 0x0D :: 0x0A :: rest => [] :: byteLines rest
  | b :: rest =>
    match byteLines rest with
    | [] => [[b]]
    | line :: lines => (b :: line) :: lines

def dropMark (text : List Char) : List Char :=
  text.dropWhile (· == '\uFEFF')

-- The rules of the lines from `number` on. A line that is no text ends the reading.
def readRules (number : Nat) : List (List UInt8) → List Rule × List RuleError
  | [] => ([], [])
  | bytes :: rest =>
    match Text.ofBytes? bytes with
    | none => ([], [.io number .notUtf8])
    | some text =>
      let chars := if number = 1 then dropMark text.toList else text.toList
      let (rules, errors) := readRules (number + 1) rest
      match Rule.ofLine? chars with
      | none => (rules, errors)
      | some (_, .ok rule) => (rule :: rules, errors)
      | some (line, .error error) =>
        (rules, .glob number (String.ofList line) error :: errors)

inductive Verdict where
  | ignored
  | kept
  | undecided
  deriving DecidableEq

namespace Verdict

def orElse (first second : Verdict) : Verdict :=
  match first with
  | undecided => second
  | _ => first

end Verdict

def Rule.applies (r : Rule) (path : List UInt8) (isDir : Bool) : Bool :=
  r.glob.matchesPath path && (!r.onlyDirs || isDir)

def decideBy (rules : List Rule) (path : List UInt8) (isDir : Bool) : Verdict :=
  match rules.reverse.find? (·.applies path isDir) with
  | some rule => if rule.keeps then .kept else .ignored
  | none => .undecided

end TestExplorer.Ignore
