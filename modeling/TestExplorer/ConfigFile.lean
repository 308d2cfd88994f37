import TestExplorer.Config
import TestExplorer.FileSystem.Basic
import TestExplorer.Toml.Basic

set_option autoImplicit false

namespace TestExplorer

namespace Toml

def string? : Toml → Option String
  | string text => some text
  | _ => none

def strings? : Toml → Option (List String)
  | array items => items.mapM string?
  | tables items => items.mapM string?
  | _ => none

def natural? : Toml → Option Nat
  | integer value => if 0 ≤ value then some value.toNat else none
  | _ => none

-- The fields of a section by name, or by position when it is written as an array. A date is a
-- section without fields.
def section? (names : List String) : Toml → Option (String → Option Toml)
  | table _ members => some fun name => find? name members
  | array items => some fun name => find? name (names.zip items)
  | tables items => some fun name => find? name (names.zip items)
  | datetime => some fun _ => none
  | _ => none

-- A field that is given has to be of its kind; one that is not keeps its default.
def field? {α : Type} (read : Toml → Option α) (default : α) : Option Toml → Option α
  | none => some default
  | some value => read value

end Toml

def DiscoverySettings.ofToml? (t : Toml) : Option DiscoverySettings := do
  let fields ← t.section? ["extensions", "exclude_dirs"]
  let default : DiscoverySettings := {}
  let extensions ← Toml.field? Toml.strings? default.extensions (fields "extensions")
  let excludeDirs ← Toml.field? Toml.strings? default.excludeDirs (fields "exclude_dirs")
  some { extensions, excludeDirs }

def InterpreterSettings.ofToml? (t : Toml) : Option InterpreterSettings := do
  let fields ← t.section? ["program", "args", "timeout_secs"]
  let default : InterpreterSettings := {}
  let program ← Toml.field? Toml.string? default.program (fields "program")
  let args ← Toml.field? Toml.strings? default.args (fields "args")
  let timeoutSecs ← Toml.field? Toml.natural? default.timeoutSecs (fields "timeout_secs")
  some { program, args, timeoutSecs }

namespace Config

def ofToml? (members : Toml.Members) : Option Config := do
  let discovery ← Toml.field? DiscoverySettings.ofToml? {} (Toml.find? "discovery" members)
  let interpreter ← Toml.field? InterpreterSettings.ofToml? {} (Toml.find? "interpreter" members)
  some { discovery, interpreter }

variable [Toml.Parser]

def parse (text : String) : Except ConfigError Config :=
  match (Toml.Parser.parse? text).bind ofToml? with
  | some config => .ok config
  | none => .error .parse

def fileName : Path :=
  .ofString "prologtest.toml"

def parseFile (fs : FileSystem) (here : List Name) (path : Path) : Except ConfigError Config :=
  match fs.readText here path with
  | .ok text => parse text
  | .error cause => .error (.read path cause)

def overridden (config : Except ConfigError Config) (env : Environment) :
    Except ConfigError Config × List Notice :=
  match config with
  | .error error => (.error error, [])
  | .ok config =>
    let (config, notices) := config.override env
    (config.checked, notices)

def fromFile (fs : FileSystem) (here : List Name) (env : Environment) (path : Path) :
    Except ConfigError Config × List Notice :=
  overridden (parseFile fs here path) env

def load (fs : FileSystem) (here : List Name) (env : Environment) (root : Path) :
    Except ConfigError Config × List Notice :=
  let candidate := root.join fileName
  let config := if fs.isFile here candidate then parseFile fs here candidate else .ok {}
  overridden config env

def renderList : List String → String
  | [] => "[]"
  | items =>
    "[\n" ++ String.join (items.map fun item => "    " ++ Text.quoted item ++ ",\n") ++ "]"

def render (c : Config) : String :=
  "[discovery]\n" ++
  "extensions = " ++ renderList c.discovery.extensions ++ "\n" ++
  "exclude_dirs = " ++ renderList c.discovery.excludeDirs ++ "\n" ++
  "\n[interpreter]\n" ++
  "program = " ++ Text.quoted c.interpreter.program ++ "\n" ++
  "args = " ++ renderList c.interpreter.args ++ "\n" ++
  "timeout_secs = " ++ Text.decimal c.interpreter.timeoutSecs ++ "\n"

end Config

end TestExplorer
