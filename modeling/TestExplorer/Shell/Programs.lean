import TestExplorer.FileSystem.Basic
import TestExplorer.Shell.Condition
import TestExplorer.Shell.Format

set_option autoImplicit false

namespace TestExplorer.Shell

def ofBytes (bytes : List UInt8) : List Char :=
  bytes.map fun b => Char.ofNat b.toNat

def toBytes (text : List Char) : List UInt8 :=
  text.map fun c => UInt8.ofNat c.toNat

def ofString (text : String) : List Char :=
  ofBytes (Text.toBytes text)

structure Effect where
  status : Nat := 0
  out : List Char := []
  err : List Char := []
  nanos : Nat := 0
  input : List Char := []

def joinWords (words : List (List Char)) : List Char :=
  [' '].intercalate words

def echo (args : List (List Char)) : List Char :=
  let (newline, args) := match args with
    | ['-', 'n'] :: rest => (false, rest)
    | _ => (true, args)
  let (shown, stop) := escaped (joinWords args)
  shown ++ if newline && !stop then ['\n'] else []

def isEchoOption (word : List Char) : Bool :=
  match word with
  | '-' :: c :: rest => (c :: rest).all fun c => c == 'n' || c == 'e' || c == 'E'
  | _ => false

-- The program of the same name knows escapes only when an option asks for them.
def echoProgram (args : List (List Char)) : Effect :=
  let options := (args.takeWhile isEchoOption).flatten
  let text := joinWords (args.dropWhile isEchoOption)
  let escapes := (options.filter fun c => c == 'e' || c == 'E').getLast? == some 'e'
  let (shown, stop) := if escapes then escaped text else (text, false)
  { out := shown ++ if options.contains 'n' || stop then [] else ['\n'] }

def seeHelp (program : List Char) : List Char :=
  "\nTry '".toList ++ program ++ " --help' for more information.\n".toList

def inQuotes (word : List Char) : List Char :=
  '\'' :: word ++ ['\'']

def shownFile (name : List Char) : List Char :=
  let special := " !\"$&'()*;<>?[\\^\x60|".toList
  if !name.any special.contains then name
  else if name.contains '\'' && !name.any "\"$\x60\\".toList.contains then '"' :: name ++ ['"']
  else inQuotes (name.flatMap fun c => if c = '\'' then "'\\''".toList else [c])

def badOption (program option : List Char) : Effect :=
  let reason := match option with
    | '-' :: '-' :: _ => ": unrecognized option ".toList ++ inQuotes option
    | _ => ": invalid option -- ".toList ++ inQuotes ((option.drop 1).take 1)
  { status := 1, err := program ++ reason ++ seeHelp program }

def isOption (word : List Char) : Bool :=
  match word with
  | '-' :: _ :: _ => true
  | _ => false

def splitOptions : List (List Char) → List (List Char) × List (List Char)
  | [] => ([], [])
  | ['-', '-'] :: rest => ([], rest)
  | word :: rest =>
    let (options, others) := splitOptions rest
    if isOption word then (word :: options, others) else (options, word :: others)

def unknownOption? (letters : List Char) : List (List Char) → Option (List Char)
  | [] => none
  | ('-' :: '-' :: name) :: _ => some ('-' :: '-' :: name)
  | ('-' :: chars) :: rest =>
    match chars.find? fun c => !letters.contains c with
    | some c => some ['-', c]
    | none => unknownOption? letters rest
  | _ :: rest => unknownOption? letters rest

def programComplaint (c : FormatComplaint) : List Char :=
  match c with
  | .notNumber word => inQuotes word ++ ": expected a numeric value".toList
  | .partlyNumber word => inQuotes word ++ ": value not completely converted".toList
  | .outOfRange word => inQuotes word ++ ": Numerical result out of range".toList
  | .invalidDirective text => text ++ ": invalid conversion specification".toList
  | .missingCharacter => "%: invalid conversion specification".toList

def printfProgram (program : List Char) (args : List (List Char)) : Effect :=
  match (if args.head? = some ['-', '-'] then args.tail else args) with
  | [] => { status := 1, err := program ++ ": missing operand".toList ++ seeHelp program }
  | text :: args =>
    let printed := format text args
    let line (text : List Char) : List Char := program ++ ": ".toList ++ text ++ ['\n']
    let surplus := match printed.args with
      | first :: _ =>
        if printed.stopped then []
        else line ("warning: ignoring excess arguments, starting with ".toList ++ inQuotes first)
      | [] => []
    { status := min printed.status 1, out := printed.out
      err := printed.complaints.flatMap (fun c => line (programComplaint c)) ++ surplus }

def unitOf? (text : List Char) : Option Nat :=
  match text with
  | [] => some 1000000000
  | ['s'] => some 1000000000
  | ['m'] => some 60000000000
  | ['h'] => some 3600000000000
  | ['d'] => some 86400000000000
  | _ => none

def timeOf? (text : List Char) : Option Nat := do
  let whole := text.takeWhile isDigit
  let (places, rest) := match text.dropWhile isDigit with
    | '.' :: rest => (rest.takeWhile isDigit, rest.dropWhile isDigit)
    | rest => ([], rest)
  if whole.isEmpty && places.isEmpty then none
  else
    let unit ← unitOf? rest
    some (natOf (whole ++ places) * unit / Nat.pow 10 places.length)

def forever : Nat := Nat.pow 10 30

def sleep (program : List Char) (args : List (List Char)) : Effect :=
  let (options, times) := splitOptions args
  match unknownOption? [] options, times with
  | some option, _ => badOption program option
  | none, [] => { status := 1, err := program ++ ": missing operand".toList ++ seeHelp program }
  | none, _ =>
    let time? (text : List Char) : Option Nat :=
      if text = "inf".toList ∨ text = "infinity".toList then some forever else timeOf? text
    match times.filter fun text => (time? text).isNone with
    | [] => { nanos := (times.filterMap time?).foldr (· + ·) 0 }
    | bad =>
      let lines := bad.map fun text =>
        program ++ ": invalid time interval ".toList ++ inQuotes text
      { status := 1, err := ['\n'].intercalate lines ++ seeHelp program }

def Effect.andThen (a b : Effect) : Effect :=
  { status := if b.status = 0 then a.status else b.status
    out := a.out ++ b.out, err := a.err ++ b.err, nanos := a.nanos + b.nanos, input := b.input }

def catFile (program : List Char) (read : List Char → Except IoError (List UInt8))
    (input name : List Char) : Effect :=
  if name = ['-'] ∨ name = "/dev/stdin".toList then { out := input }
  else if name = "/dev/null".toList then { input }
  else match read name with
    | .ok bytes => { out := ofBytes bytes, input }
    | .error cause =>
      let reason := match cause with
        | .isDirectory => "Is a directory"
        | .notDirectory => "Not a directory"
        | .permissionDenied => "Permission denied"
        | _ => "No such file or directory"
      { status := 1, input
        err := program ++ ": ".toList ++ shownFile name ++ ": ".toList ++ reason.toList ++ ['\n'] }

def cat (program : List Char) (read : List Char → Except IoError (List UInt8)) (input : List Char)
    (args : List (List Char)) : Effect :=
  let (options, names) := splitOptions args
  match unknownOption? "AbeEnstTuv".toList options with
  | some option => badOption program option
  | none =>
    let names := if names.isEmpty then [['-']] else names
    names.foldl (fun effect name => effect.andThen (catFile program read effect.input name)) { input }

def testWords (name : List Char) (stat : List Char → Option Inode) (args : List (List Char)) :
    Nat × List Char :=
  let words := if name = ['['] then args.dropLast else args
  if name = ['['] ∧ args.getLast? ≠ some [']'] then (2, "missing ]".toList)
  else match Condition.holds stat words with
    | .ok answer => (if answer then 0 else 1, [])
    | .error cause => (2, cause.message)

def systemDirs : List String :=
  ["/bin/", "/usr/bin/"]

def plainName (name : List Char) : List Char :=
  match systemDirs.find? fun dir => dir.toList.isPrefixOf name with
  | some dir => name.drop dir.length
  | none => name

def run? (site : Site) (input : List Char) (program : List Char) (args : List (List Char)) :
    Option Effect :=
  match String.ofList (plainName program) with
  | "echo" => some { echoProgram args with input }
  | "printf" => some { printfProgram program args with input }
  | "true" => some { input }
  | "false" => some { status := 1, input }
  | "sleep" => some { sleep program args with input }
  | "cat" =>
    some (cat program (fun file => site.fs.read site.here ⟨toBytes file⟩) input args)
  | "test" => some (asked program args)
  | "[" => some (asked program args)
  | _ => none
where
  asked (program : List Char) (args : List (List Char)) : Effect :=
    let stat (file : List Char) : Option Inode := (site.fs.stat site.here ⟨toBytes file⟩).toOption
    let (status, reason) := testWords program stat args
    { status, input
      err := if reason.isEmpty then [] else program ++ ": ".toList ++ reason ++ ['\n'] }

end TestExplorer.Shell
