import TestExplorer.Shell.Redirection

set_option autoImplicit false

namespace TestExplorer.Shell

def specialNames : List String :=
  [":", ".", "break", "continue", "eval", "exec", "exit", "export", "readonly", "return", "set",
    "shift", "times", "trap", "unset"]

def isSpecial (name : List Char) : Bool :=
  specialNames.contains (String.ofList name)

def builtinNames : List String :=
  specialNames ++ ["true", "false", "echo", "printf", "test", "[", "local", "wait", "read", "cd", "pwd",
    "umask", "ulimit", "hash", "alias", "command", "kill", "type", "getopts", "jobs", "unalias"]

def isBuiltin (name : List Char) : Bool :=
  builtinNames.contains (String.ofList name)

def countOf? (text : List Char) : Option Nat :=
  let body := text.dropWhile isWide
  let digits := body.takeWhile isDigit
  if !digits.isEmpty && (body.drop digits.length).all isWide && natOf digits < 1 <<< 31 then
    some (natOf digits)
  else none

def splitAssignment (word : List Char) : List Char × Option (List Char) :=
  match word.dropWhile (· != '=') with
  | _ :: value => (word.takeWhile (· != '='), some value)
  | [] => (word, none)

namespace State

def leave (s : State) (name : String) (args : List (List Char)) (standard : Nat)
    (flow : Nat → State → State) : State :=
  match args with
  | [] => flow standard s
  | text :: _ =>
    match countOf? text with
    | some n => flow n s
    | none => s.abort (name.toList ++ ": Illegal number: ".toList ++ text)

def exit (s : State) (args : List (List Char)) : State :=
  s.leave "exit" args s.status fun n s => { s with status := n % 256, flow := .exited }

def giveBack (s : State) (args : List (List Char)) : State :=
  s.leave "return" args s.status fun n s => { s with status := n % 256, flow := .returned }

def breakLoop (s : State) (args : List (List Char)) : State :=
  s.leave "break" args 1 fun n s =>
    if s.loops = 0 then s.ended 0 else { s with status := 0, flow := .broken (min n s.loops) }

def continueLoop (s : State) (args : List (List Char)) : State :=
  s.leave "continue" args 1 fun n s =>
    if s.loops = 0 then s.ended 0 else { s with status := 0, flow := .continued (min n s.loops) }

def shift (s : State) (args : List (List Char)) : State :=
  s.leave "shift" args 1 fun n s =>
    if s.params.length < n then s.abort "shift: can't shift that many".toList
    else { s with params := s.params.drop n, status := 0 }

def declare (s : State) (mark : State → List Char → State) (args : List (List Char)) : State :=
  args.foldl (fun s word =>
    match splitAssignment word with
    | (name, some value) => mark (s.assign name value) name
    | (name, none) => mark s name) (s.ended 0)

def markExported (s : State) (name : List Char) : State :=
  { s with exported := name :: s.exported }

def markFixed (s : State) (name : List Char) : State :=
  { s with fixed := name :: s.fixed }

def unset (s : State) (args : List (List Char)) : State :=
  match args with
  | ['-', 'f'] :: names =>
    { s with functions := s.functions.filter (!names.contains ·.1), status := 0 }
  | ['-', 'v'] :: names => { s with vars := s.vars.filter (!names.contains ·.1), status := 0 }
  | names => { s with vars := s.vars.filter (!names.contains ·.1), status := 0 }

def setFlag (s : State) (on : Bool) (flag : Char) : State :=
  if flag = 'e' then { s with strict := on }
  else if flag = 'u' then { s with needsSet := on }
  else if flag = 'x' then { s with traced := on }
  else s

def optionLetter? (name : List Char) : Option Char :=
  match String.ofList name with
  | "errexit" => some 'e'
  | "nounset" => some 'u'
  | "noexec" => some 'n'
  | "xtrace" => some 'x'
  | "verbose" => some 'v'
  | "noglob" => some 'f'
  | "allexport" => some 'a'
  | "monitor" => some 'm'
  | "notify" => some 'b'
  | _ => none

def setOptions (s : State) : List (List Char) → State
  | [] => s.ended 0
  | ['-', '-'] :: rest => { s with params := rest, status := 0 }
  | ['-', 'o'] :: name :: rest =>
    match optionLetter? name with
    | some flag => (s.setFlag true flag).setOptions rest
    | none => s.abort ("set: Illegal option -o ".toList ++ name)
  | ['+', 'o'] :: name :: rest =>
    match optionLetter? name with
    | some flag => (s.setFlag false flag).setOptions rest
    | none => s.abort ("set: Illegal option +o ".toList ++ name)
  | ('-' :: flag :: flags) :: rest =>
    ((flag :: flags).foldl (·.setFlag true ·) s).setOptions rest
  | ('+' :: flag :: flags) :: rest =>
    ((flag :: flags).foldl (·.setFlag false ·) s).setOptions rest
  | words => { s with params := words, status := 0 }

def setTraps (s : State) (args : List (List Char)) : State :=
  let clear (s : State) (signal : Nat) : State :=
    { s with traps := s.traps.filter (·.1 ≠ signal), status := 0 }
  let each (s : State) (names : List (List Char)) (set : State → Nat → State) : State :=
    names.foldl (fun s name =>
      match signalOf? name with
      | some signal => set s signal
      | none => (s.printErr ("trap: ".toList ++ name ++ ": bad trap\n".toList)).ended 1) (s.ended 0)
  match args with
  | [] => s.ended 0
  | [name] => each s [name] clear
  | ['-'] :: names => each s names clear
  | action :: names =>
    if (signalOf? action).isSome && action.all isDigit then each s args clear
    else each s names fun s signal =>
      let s := clear s signal
      { s with traps := (signal, action) :: s.traps }

def wait (s : State) (args : List (List Char)) : State :=
  match args with
  | [] => { s with nanos := (s.jobs.map (·.finish)).foldl max s.nanos, status := 0 }
  | _ =>
    args.foldl (fun s arg =>
      if !arg.all isDigit then s.fail ("wait: Illegal number: ".toList ++ arg)
      else match s.jobs.find? fun j => shown j.id = arg with
      | some job =>
        let s := { s with nanos := max s.nanos job.finish, status := job.status }
        s.printErr ((job.signal.map deathNotice).getD [])
      | none => s.ended 127) s

def markLocal (s : State) (name : List Char) : State :=
  { s with outer := (name, s.lookup? name) :: s.outer }

def leaveFunction (s before : State) : State :=
  let restored := s.outer.foldl (fun s (name, value) =>
    match value with
    | some value => s.bind name value
    | none => { s with vars := s.vars.filter (·.1 ≠ name) }) s
  { restored with
    params := before.params, loops := before.loops, outer := before.outer
    isFunction := before.isFunction }

def breaks (s : State) : List Char :=
  (s.lookup? "IFS".toList).getD standardBreaks

def read (s : State) (args : List (List Char)) : State :=
  let raw := args.contains ['-', 'r']
  let names := args.filter (· ≠ ['-', 'r'])
  if names.isEmpty then s.fail "read: arg count".toList
  else
    let (line, ended, rest) := readInputLine raw s.input
    let fields := readFields s.breaks names.length line
    let s := (names.zip fields).foldl (fun s (name, value) => s.assign name value)
      { s with input := rest }
    s.ended (if ended then 0 else 1)

def changeDir (s : State) (args : List (List Char)) : State :=
  match args with
  | [] => s.ended 0
  | file :: _ =>
    match s.site.fs.resolve s.site.here ⟨toBytes file⟩ with
    | .ok place =>
      if s.site.fs.isDir [] (FileSystem.pathOf place) then
        { s with site := { s.site with here := place }, status := 0 }
      else s.fail ("cd: can't cd to ".toList ++ file)
    | .error _ => s.fail ("cd: can't cd to ".toList ++ file)

def printOrFail (s : State) (name : String) (text : List Char) : State :=
  if (s.sinkOf? 1).isSome || text.isEmpty then (s.print text).ended 0
  else (s.complain (name.toList ++ ": ".toList ++ name.toList ++ ": I/O error".toList)).ended 1

def printFormat (s : State) (args : List (List Char)) : State :=
  match (if args.head? = some ['-', '-'] then args.tail else args) with
  | [] => s.fail "printf: usage: printf format [arg ...]".toList
  | text :: args =>
    match text with
    | '-' :: c :: _ => s.fail ("printf: Illegal option -".toList ++ [c])
    | _ =>
      let printed := format text args
      let s := printed.complaints.foldl (fun s c => s.complain ("printf: ".toList ++ c.message)) s
      if (s.sinkOf? 1).isSome || printed.out.isEmpty then (s.print printed.out).ended printed.status
      else (s.complain "printf: I/O error".toList).ended 1

def ask (s : State) (name : List Char) (args : List (List Char)) : State :=
  let stat (file : List Char) : Option Inode :=
    (s.site.fs.stat s.site.here ⟨toBytes file⟩).toOption
  let (status, reason) := testWords name stat args
  let s := if reason.isEmpty then s else s.complain (name ++ ": ".toList ++ reason)
  s.ended status

end State

inductive KillRequest where
  | send (signal : Nat) (targets : List (List Char))
  | name (signal : Nat)
  | usage
  | noSignal
  | illegal (option : List Char)

def killRequest (args : List (List Char)) : KillRequest :=
  let send (signal : Nat) (targets : List (List Char)) : KillRequest :=
    let targets := if targets.head? = some ['-', '-'] then targets.tail else targets
    if targets.isEmpty then .usage else .send signal targets
  match args with
  | [] => .usage
  | [['-', 'l'], n] => .name (natOf n % 128)
  | [['-', 's']] => .noSignal
  | ['-', 's'] :: name :: rest =>
    match signalOf? name with
    | some signal => send signal rest
    | none => .usage
  | ['-', '-'] :: rest => send 15 rest
  | ('-' :: c :: name) :: rest =>
    match signalOf? (c :: name) with
    | some signal => send signal rest
    | none => .illegal [c]
  | _ => send 15 args

end TestExplorer.Shell
