import TestExplorer.Notice

set_option autoImplicit false

namespace TestExplorer

structure DiscoverySettings where
  extensions : List String := ["pl", "plt"]
  excludeDirs : List String := ["node_modules", "target", ".git", "vendor", "pack"]
  deriving DecidableEq

structure InterpreterSettings where
  program : String := "swipl"
  args : List String := []
  timeoutSecs : Nat := 300
  deriving DecidableEq

structure Config where
  discovery : DiscoverySettings := {}
  interpreter : InterpreterSettings := {}
  deriving DecidableEq

inductive ConfigError where
  | read (path : Path) (cause : IoError)
  | parse
  | invalid (reason : String)
  deriving DecidableEq

def ConfigError.message : ConfigError → String
  | read path cause => s!"Failed to read config file {path.display}: {cause.message}"
  | parse => "Failed to parse config file: "
  | invalid reason => s!"Invalid configuration: {reason}"

namespace DiscoverySettings

-- Only an extension that is text can be a known one.
def recognizes (s : DiscoverySettings) (p : Path) : Bool :=
  match p.extension?.bind Text.ofBytes? with
  | some ext => s.extensions.contains ext
  | none => false

def excludes (s : DiscoverySettings) (name : String) : Bool :=
  s.excludeDirs.contains name

end DiscoverySettings

-- No timeout when it is set to zero.
def InterpreterSettings.timeout? (s : InterpreterSettings) : Option Duration :=
  if s.timeoutSecs = 0 then none else some (.ofSeconds s.timeoutSecs)

inductive Variable where
  | interpreter
  | timeoutSecs
  | extensions
  deriving DecidableEq

def Variable.name : Variable → String
  | interpreter => "PROLOGTEST_INTERPRETER"
  | timeoutSecs => "PROLOGTEST_TIMEOUT_SECS"
  | extensions => "PROLOGTEST_EXTENSIONS"

abbrev Environment := Variable → Option String

namespace Config

def splitCommas : List Char → List (List Char)
  | [] => [[]]
  | c :: rest =>
    if c = ',' then [] :: splitCommas rest
    else match splitCommas rest with
      | [] => [[c]]
      | field :: more => (c :: field) :: more

def extensionOf (field : List Char) : List Char :=
  (Text.trim field).dropWhile (· == '.')

def extensionsOf (list : String) : List String :=
  (((splitCommas list.toList).map extensionOf).filter (! ·.isEmpty)).map String.ofList

def secondsOf? (value : String) : Option Nat :=
  Text.unsigned? (1 <<< 64) (Text.trim value.toList)

def withInterpreter (c : Config) (env : Environment) : Config :=
  match env .interpreter with
  | some program => { c with interpreter := { c.interpreter with program } }
  | none => c

-- A value that is no number of seconds is ignored with a notice.
def withTimeout (c : Config) (env : Environment) : Config × List Notice :=
  match env .timeoutSecs with
  | none => (c, [])
  | some value =>
    match secondsOf? value with
    | some timeoutSecs => ({ c with interpreter := { c.interpreter with timeoutSecs } }, [])
    | none => (c, [.timeoutIgnored value])

def withExtensions (c : Config) (env : Environment) : Config :=
  match env .extensions with
  | some list => { c with discovery := { c.discovery with extensions := extensionsOf list } }
  | none => c

def override (c : Config) (env : Environment) : Config × List Notice :=
  let (c, notices) := (c.withInterpreter env).withTimeout env
  (c.withExtensions env, notices)

def validate (c : Config) : Except ConfigError Unit :=
  if (Text.trim c.interpreter.program.toList).isEmpty then
    .error (.invalid "interpreter.program must not be empty")
  else if c.discovery.extensions.isEmpty then
    .error (.invalid "discovery.extensions must list at least one extension")
  else .ok ()

def checked (c : Config) : Except ConfigError Config :=
  c.validate.map fun _ => c

end Config

end TestExplorer
