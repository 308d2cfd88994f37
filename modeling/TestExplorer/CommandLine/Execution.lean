import TestExplorer.CommandLine.Console
import TestExplorer.CommandLine.Request
import TestExplorer.CommandLine.Selection
import TestExplorer.ConfigFile
import TestExplorer.Frontend
import TestExplorer.Presentation

set_option autoImplicit false

namespace TestExplorer.CommandLine

variable [Toml.Parser] [Walker] [Processes]

inductive CommandError where
  | cannotOpen (path : Path) (cause : IoError)
  | settings (error : ConfigError)
  | engine (error : EngineError)
  | selection (error : SelectionError)
  | notWritable (cause : String)
  deriving DecidableEq

def CommandError.message : CommandError → String
  | cannotOpen path cause => s!"Error: cannot open '{path.display}': {cause.message}"
  | settings error => s!"Error: {error.message}"
  | engine error => s!"Error: {error.message}"
  | selection error => error.message
  | notWritable cause => s!"Error serializing test tree: {cause}"

structure Completion where
  exitCode : Option Nat := some 0
  out : String := ""
  err : String := ""
  deriving DecidableEq

def CommandError.completion (e : CommandError) : Completion :=
  { exitCode := some 1, err := e.message ++ "\n" }

def resolveEach (site : Site) : List Path → Except CommandError (List Path)
  | [] => .ok []
  | path :: rest =>
    match site.fs.canonical site.here path with
    | .error cause => .error (.cannotOpen path cause)
    | .ok root => do return root :: (← resolveEach site rest)

def resolveRoots (site : Site) (paths : List Path) : Except CommandError (List Path) :=
  resolveEach site (if paths.isEmpty then [.ofString "."] else paths)

def displayBase (site : Site) : List Path → Path
  | [] => .ofString ""
  | root :: _ =>
    if site.fs.isFile site.here root then root.parent?.getD (.ofString "") else root

def settingsOf (site : Site) (env : Environment) (request : Request) (roots : List Path) :
    Except CommandError Config :=
  let (config, _) := match request.config with
    | some file => Config.fromFile site.fs site.here env (.ofString file)
    | none => Config.load site.fs site.here env (displayBase site roots)
  config.mapError .settings

def withRequest (config : Config) (request : Request) : Config :=
  { config with
    interpreter :=
      { config.interpreter with
        timeoutSecs := request.timeout.getD config.interpreter.timeoutSecs
        program := request.interpreter.getD config.interpreter.program } }

-- The settings that a run uses. They are looked at before and after the command line has its say.
def runSettings (site : Site) (env : Environment) (request : Request) (roots : List Path) :
    Except CommandError Config := do
  let config ← settingsOf site env request roots
  (withRequest config request).checked.mapError .settings

def runFlag : Flag := 0

def frontend (site : Site) (config : Config) : Frontend Console :=
  { site := fun _ => site
    settings := config.discovery
    launcher := .ofSettings config.interpreter
    observe := fun event (e, console) => (e, console.observe event)
    launched := Console.launched runFlag
    note := fun _ console => console }

-- Discovers the workspace; the tree is read before the controller is disposed.
def listing (c : Controller) : Activity (Except CommandError (Summary × Tree)) := do
  match ← c.reload with
  | .error error => pure (.error (.engine error))
  | .ok summary =>
    let tree ← Controller.snapshot
    Controller.dispose
    pure (.ok (summary, tree))

def Request.options (request : Request) : RunOptions :=
  { keyword := request.keyword, stopOnFailure := request.stopOnFailure }

def Request.console (request : Request) : Console :=
  { quiet := request.json, verbose := request.verbose }

def runSelected (c : Controller) (request : Request) (flag : Flag) :
    Activity (Except CommandError Report) := do
  match ← c.reload with
  | .error error => pure (.error (.engine error))
  | .ok _ =>
    let tree ← Controller.snapshot
    match tree.select request.suites request.tests with
    | .error error => pure (.error (.selection error))
    | .ok scope =>
      let report ← c.run scope request.options flag
      Controller.dispose
      pure (report.mapError .engine)

-- Stopping at the first failure always follows a failure, so a run that was cancelled without one
-- was interrupted.
def exitCode (report : Report) : Nat :=
  if report.failed > 0 then 1 else if report.cancelled then 130 else 0

def printTree (request : Request) (base : Path) (summary : Summary) (tree : Tree) :
    Except CommandError String :=
  if request.json then
    match Node.jsonOf? tree.nodes with
    | .ok json => .ok (json.pretty 0 ++ "\n")
    | .error cause => .error (.notWritable cause)
  else .ok (tree.listing base ++ summary.warningListing base)

def list (site : Site) (env : Environment) (request : Request) :
    Except CommandError Completion := do
  let roots ← resolveRoots site (request.paths.map .ofString)
  let config ← settingsOf site env request roots
  let controller : Controller := { roots, settings := config.discovery }
  let (found, _) := (listing controller).exec (frontend site config).host ({}, {})
  let (summary, tree) ← found
  return { out := ← printTree request (displayBase site roots) summary tree }

def runOn (host : Activity.Host Console) (controller : Controller) (request : Request) :
    Except CommandError Completion := do
  let (result, (_, console)) :=
    (runSelected controller request runFlag).exec host ({}, request.console)
  let report ← result
  if console.killed then return { exitCode := none, err := console.shown }
  else
    return {
      exitCode := some (exitCode report)
      out := if request.json then report.json.pretty 0 ++ "\n" else ""
      err := console.shown }

def run (site : Site) (env : Environment) (request : Request) :
    Except CommandError Completion := do
  let roots ← resolveRoots site (request.paths.map .ofString)
  let config ← runSettings site env request roots
  runOn (frontend site config).host { roots, settings := config.discovery } request

def perform (site : Site) (env : Environment) (request : Request) : Completion :=
  let result := match request.verb with
    | .list => list site env request
    | .run => run site env request
  match result with
  | .ok completion => completion
  | .error error => error.completion

end TestExplorer.CommandLine
