import TestExplorer.CommandLine.Request
import TestExplorer.Text.Number
import TestExplorer.Text.Search

set_option autoImplicit false

namespace TestExplorer.CommandLine

inductive UsageError where
  | unknownArgument
  | invalidValue
  | valueValidation
  | tooManyValues
  | argumentConflict
  | invalidSubcommand
  | missingSubcommand
  | help
  | version
  deriving DecidableEq

-- Help and version are answers; any other fault is an error.
def UsageError.exitCode : UsageError → Nat
  | help => 0
  | version => 0
  | _ => 2

inductive Switch where
  | json
  | stopOnFailure
  | verbose
  | help
  deriving DecidableEq

inductive Field where
  | config
  | suite
  | test
  | keyword
  | timeout
  | interpreter
  deriving DecidableEq

inductive Flagged where
  | switch (s : Switch)
  | field (f : Field)
  deriving DecidableEq

def Verb.short? : Verb → Char → Option Flagged
  | _, 'h' => some (.switch .help)
  | .list, _ => none
  | .run, 's' => some (.field .suite)
  | .run, 't' => some (.field .test)
  | .run, 'k' => some (.field .keyword)
  | .run, 'x' => some (.switch .stopOnFailure)
  | .run, 'v' => some (.switch .verbose)
  | .run, _ => none

def Verb.long? : Verb → String → Option Flagged
  | _, "help" => some (.switch .help)
  | _, "json" => some (.switch .json)
  | _, "config" => some (.field .config)
  | .list, _ => none
  | .run, "suite" => some (.field .suite)
  | .run, "test" => some (.field .test)
  | .run, "exitfirst" => some (.switch .stopOnFailure)
  | .run, "verbose" => some (.switch .verbose)
  | .run, "timeout" => some (.field .timeout)
  | .run, "interpreter" => some (.field .interpreter)
  | .run, _ => none

namespace Request

def turnOn (r : Request) : Switch → Except UsageError Request
  | .json => if r.json then .error .argumentConflict else .ok { r with json := true }
  | .stopOnFailure =>
    if r.stopOnFailure then .error .argumentConflict else .ok { r with stopOnFailure := true }
  | .verbose => if r.verbose then .error .argumentConflict else .ok { r with verbose := true }
  | .help => .error .help

-- Gives a field its value. Only suites and tests can be given more than once.
def assign (r : Request) (f : Field) (value : String) : Except UsageError Request :=
  match f with
  | .config =>
    if r.config.isSome then .error .argumentConflict
    else if value.isEmpty then .error .invalidValue
    else .ok { r with config := some value }
  | .suite => .ok { r with suites := r.suites ++ [value] }
  | .test => .ok { r with tests := r.tests ++ [value] }
  | .keyword =>
    if r.keyword.isSome then .error .argumentConflict else .ok { r with keyword := some value }
  | .timeout =>
    if r.timeout.isSome then .error .argumentConflict
    else match Text.unsigned? (1 <<< 64) value.toList with
      | some seconds => .ok { r with timeout := some seconds }
      | none => .error .valueValidation
  | .interpreter =>
    if r.interpreter.isSome then .error .argumentConflict
    else .ok { r with interpreter := some value }

def addPaths (r : Request) (paths : List String) : Except UsageError Request :=
  if paths.any String.isEmpty then .error .invalidValue
  else .ok { r with paths := r.paths ++ paths }

end Request

inductive Pending where
  | nothing
  | paths (paths : List String)
  | value (f : Field)
  | given (f : Field) (value : String)
  deriving DecidableEq

structure Reading where
  request : Request
  pending : Pending := .nothing
  pathsOnly : Bool := false
  deriving DecidableEq

namespace Reading

def settle (r : Reading) : Except UsageError Reading :=
  match r.pending with
  | .nothing => .ok r
  | .paths paths => do return { r with request := ← r.request.addPaths paths, pending := .nothing }
  | .value _ => .error .invalidValue
  | .given f value => do
    return { r with request := ← r.request.assign f value, pending := .nothing }

def turnOn (r : Reading) (s : Switch) : Except UsageError Reading := do
  let r ← r.settle
  return { r with request := ← r.request.turnOn s }

def attach (r : Reading) (f : Field) (value : String) : Except UsageError Reading := do
  let r ← r.settle
  return { r with request := ← r.request.assign f value }

def await (r : Reading) (f : Field) : Except UsageError Reading := do
  let r ← r.settle
  return { r with pending := .value f }

def path (r : Reading) (text : String) : Except UsageError Reading :=
  match r.pending with
  | .paths paths => .ok { r with pending := .paths (paths ++ [text]) }
  | _ => do
    let r ← r.settle
    return { r with pending := .paths [text] }

-- Short switches in one argument; the first option that takes a value takes what is left.
def shorts (r : Reading) : List Char → Except UsageError Reading
  | [] => .ok r
  | c :: rest =>
    match r.request.verb.short? c with
    | none => .error .unknownArgument
    | some (.switch s) => do shorts (← r.turnOn s) rest
    | some (.field f) =>
      match rest with
      | [] => r.await f
      | '=' :: value => r.attach f (String.ofList value)
      | value => r.attach f (String.ofList value)

def splitEquals (text : List Char) : String × Option String :=
  match Text.cut? ['='] text with
  | some (name, value) => (String.ofList name, some (String.ofList value))
  | none => (String.ofList text, none)

def long (r : Reading) (text : List Char) : Except UsageError Reading :=
  let (name, value) := splitEquals text
  match r.request.verb.long? name, value with
  | none, _ => .error .unknownArgument
  | some (.switch s), none => r.turnOn s
  | some (.switch _), some _ => .error .tooManyValues
  | some (.field f), none => r.await f
  | some (.field f), some value => r.attach f value

def take (r : Reading) (arg : String) : Except UsageError Reading :=
  if r.pathsOnly then r.path arg
  else match arg.toList with
    | ['-', '-'] => .ok { r with pathsOnly := true }
    | '-' :: '-' :: text => r.long text
    | '-' :: c :: text => r.shorts (c :: text)
    | _ =>
      match r.pending with
      | .value f => .ok { r with pending := .given f arg }
      | _ => r.path arg

def takeAll (r : Reading) : List String → Except UsageError Request
  | [] => do return (← r.settle).request
  | arg :: rest => do takeAll (← r.take arg) rest

end Reading

def verb? (name : String) : Option Verb :=
  if name = "list" then some .list
  else if name = "run" then some .run
  else none

def isSubcommand (name : String) : Bool :=
  name = "help" || (verb? name).isSome

-- The subcommands have no subcommands of their own.
def helpOn : List String → UsageError
  | [] => .help
  | [name] => if isSubcommand name then .help else .invalidSubcommand
  | _ => .invalidSubcommand

def misplaced (arg : String) : UsageError :=
  match arg.toList with
  | '-' :: '-' :: text =>
    match (Reading.splitEquals text) with
    | ("help", none) => .help
    | ("version", none) => .version
    | ("help", some _) => .tooManyValues
    | ("version", some _) => .tooManyValues
    | _ => .unknownArgument
  | '-' :: 'h' :: _ => .help
  | '-' :: 'V' :: _ => .version
  | '-' :: _ :: _ => .unknownArgument
  | _ => .invalidSubcommand

def Request.parse : List String → Except UsageError Request
  | [] => .error .missingSubcommand
  | ["--"] => .error .missingSubcommand
  | "--" :: arg :: _ =>
    .error (if isSubcommand arg then .unknownArgument else .invalidSubcommand)
  | "help" :: rest => .error (helpOn rest)
  | arg :: rest =>
    match verb? arg with
    | some verb => ({ request := { verb } } : Reading).takeAll rest
    | none => .error (misplaced arg)

end TestExplorer.CommandLine
