import TestExplorer.ConfigFile

set_option autoImplicit false

namespace TestExplorer

structure Layer where
  extensions : Option (List String) := none
  excludeDirs : Option (List String) := none
  program : Option String := none
  args : Option (List String) := none
  timeoutSecs : Option Nat := none
  deriving DecidableEq

namespace Layer

def onto (upper lower : Layer) : Layer where
  extensions := upper.extensions.or lower.extensions
  excludeDirs := upper.excludeDirs.or lower.excludeDirs
  program := upper.program.or lower.program
  args := upper.args.or lower.args
  timeoutSecs := upper.timeoutSecs.or lower.timeoutSecs

def discovery (l : Layer) : DiscoverySettings :=
  let default : DiscoverySettings := {}
  { extensions := l.extensions.getD default.extensions
    excludeDirs := l.excludeDirs.getD default.excludeDirs }

def interpreter (l : Layer) : InterpreterSettings :=
  let default : InterpreterSettings := {}
  { program := l.program.getD default.program
    args := l.args.getD default.args
    timeoutSecs := l.timeoutSecs.getD default.timeoutSecs }

def settle (l : Layer) : Config :=
  { discovery := l.discovery, interpreter := l.interpreter }

def ofEnvironment (env : Environment) : Layer where
  extensions := (env .extensions).map Config.extensionsOf
  program := env .interpreter
  timeoutSecs := (env .timeoutSecs).bind Config.secondsOf?

def ofConfig (c : Config) : Layer where
  extensions := some c.discovery.extensions
  excludeDirs := some c.discovery.excludeDirs
  program := some c.interpreter.program
  args := some c.interpreter.args
  timeoutSecs := some c.interpreter.timeoutSecs

def ofDiscovery? (t : Toml) : Option Layer := do
  let fields ← t.section? ["extensions", "exclude_dirs"]
  let extensions ← (fields "extensions").mapM Toml.strings?
  let excludeDirs ← (fields "exclude_dirs").mapM Toml.strings?
  some { extensions, excludeDirs }

def ofInterpreter? (t : Toml) : Option Layer := do
  let fields ← t.section? ["program", "args", "timeout_secs"]
  let program ← (fields "program").mapM Toml.string?
  let args ← (fields "args").mapM Toml.strings?
  let timeoutSecs ← (fields "timeout_secs").mapM Toml.natural?
  some { program, args, timeoutSecs }

def ofToml? (members : Toml.Members) : Option Layer := do
  let discovery := (← (Toml.find? "discovery" members).mapM ofDiscovery?).getD {}
  let interpreter := (← (Toml.find? "interpreter" members).mapM ofInterpreter?).getD {}
  some { discovery with
    program := interpreter.program
    args := interpreter.args
    timeoutSecs := interpreter.timeoutSecs }

def ofFile? [Toml.Parser] : Option String → Option Layer
  | none => some {}
  | some text => (Toml.Parser.parse? text).bind ofToml?

end Layer

/-! ## Files -/

theorem Toml.field?_eq {α : Type} (read : Toml → Option α) (default : α) (field : Option Toml) :
    Toml.field? read default field = (field.mapM read).map (·.getD default) := by
  cases field with
  | none => rfl
  | some value => cases given : read value <;> simp [Toml.field?, Option.mapM_some, given]

theorem DiscoverySettings.ofToml?_eq (t : Toml) :
    ofToml? t = (Layer.ofDiscovery? t).map Layer.discovery := by
  simp only [ofToml?, Layer.ofDiscovery?, Toml.field?_eq]
  cases t.section? ["extensions", "exclude_dirs"] with
  | none => rfl
  | some fields =>
    cases extensions : (fields "extensions").mapM Toml.strings? <;>
      cases excludeDirs : (fields "exclude_dirs").mapM Toml.strings? <;>
      simp [extensions, excludeDirs, Layer.discovery]

theorem InterpreterSettings.ofToml?_eq (t : Toml) :
    ofToml? t = (Layer.ofInterpreter? t).map Layer.interpreter := by
  simp only [ofToml?, Layer.ofInterpreter?, Toml.field?_eq]
  cases t.section? ["program", "args", "timeout_secs"] with
  | none => rfl
  | some fields =>
    cases program : (fields "program").mapM Toml.string? <;>
      cases args : (fields "args").mapM Toml.strings? <;>
      cases timeoutSecs : (fields "timeout_secs").mapM Toml.natural? <;>
      simp [program, args, timeoutSecs, Layer.interpreter]

theorem Toml.field?_section {α : Type} {read : Toml → Option α} {layer? : Toml → Option Layer}
    {part : Layer → α} (same : ∀ t, read t = (layer? t).map part) (field : Option Toml) :
    Toml.field? read (part {}) field = (field.mapM layer?).map fun l => part (l.getD {}) := by
  cases field with
  | none => rfl
  | some t => cases given : layer? t <;> simp [Toml.field?, Option.mapM_some, same, given]

theorem Config.ofToml?_eq (members : Toml.Members) :
    ofToml? members = (Layer.ofToml? members).map Layer.settle := by
  have discovery := Toml.field?_section DiscoverySettings.ofToml?_eq
    (Toml.find? "discovery" members)
  have interpreter := Toml.field?_section InterpreterSettings.ofToml?_eq
    (Toml.find? "interpreter" members)
  simp only [ofToml?, Layer.ofToml?]
  rw [show ({} : DiscoverySettings) = Layer.discovery {} from rfl, discovery,
    show ({} : InterpreterSettings) = Layer.interpreter {} from rfl, interpreter]
  cases (Toml.find? "discovery" members).mapM Layer.ofDiscovery? with
  | none => rfl
  | some upper =>
    cases (Toml.find? "interpreter" members).mapM Layer.ofInterpreter? with
    | none => rfl
    | some lower => rfl

theorem Config.parse_ok_iff [Toml.Parser] {text : String} {config : Config} :
    parse text = .ok config ↔
      ∃ file, Layer.ofFile? (some text) = some file ∧ file.settle = config := by
  have read : (Toml.Parser.parse? text).bind ofToml? =
      ((Toml.Parser.parse? text).bind Layer.ofToml?).map Layer.settle := by
    cases Toml.Parser.parse? text with
    | none => rfl
    | some members => exact ofToml?_eq members
  rw [parse, read, Layer.ofFile?]
  cases (Toml.Parser.parse? text).bind Layer.ofToml? <;> simp

/-! ## The environment -/

namespace Config

variable (c : Config) (env : Environment)

theorem withInterpreter_eq : c.withInterpreter env =
    { c with interpreter := { c.interpreter with
      program := (env .interpreter).getD c.interpreter.program } } := by
  unfold withInterpreter
  cases env .interpreter <;> rfl

theorem withTimeout_fst : (c.withTimeout env).1 =
    { c with interpreter := { c.interpreter with
      timeoutSecs := ((env .timeoutSecs).bind secondsOf?).getD c.interpreter.timeoutSecs } } := by
  unfold withTimeout
  cases env .timeoutSecs with
  | none => rfl
  | some value => cases read : secondsOf? value <;> simp [read]

theorem withExtensions_eq : c.withExtensions env =
    { c with discovery := { c.discovery with
      extensions := ((env .extensions).map extensionsOf).getD c.discovery.extensions } } := by
  unfold withExtensions
  cases env .extensions <;> rfl

theorem override_eq :
    (c.override env).1 = ((Layer.ofEnvironment env).onto (.ofConfig c)).settle := by
  have steps :
      (c.override env).1 = ((c.withInterpreter env).withTimeout env).1.withExtensions env :=
    rfl
  rw [steps, withExtensions_eq, withTimeout_fst, withInterpreter_eq]
  simp [Layer.settle, Layer.onto, Layer.ofEnvironment, Layer.ofConfig, Layer.discovery,
    Layer.interpreter, Option.or_some]

end Config

-- Settled settings lie under a layer as what they were settled from.
theorem Layer.settle_onto_settle (upper lower : Layer) :
    (upper.onto (.ofConfig lower.settle)).settle = (upper.onto lower).settle := by
  simp [settle, onto, ofConfig, discovery, interpreter, Option.or_some, Option.getD_or]

end TestExplorer
