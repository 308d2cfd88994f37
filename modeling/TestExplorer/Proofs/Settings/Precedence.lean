import TestExplorer.CommandLine.Commands
import TestExplorer.FileSystem.Layout
import TestExplorer.Proofs.Execution
import TestExplorer.Proofs.Scan.Argument
import TestExplorer.Proofs.Settings.Layers

set_option autoImplicit false

namespace TestExplorer

def Blank (text : String) : Prop :=
  ∀ c ∈ text.toList, Text.isBlank c

instance (text : String) : Decidable (Blank text) :=
  List.decidableBAll (Text.isBlank · = true) text.toList

theorem Text.trim_eq_nil_iff {text : List Char} : trim text = [] ↔ ∀ c ∈ text, isBlank c := by
  constructor
  case mp =>
    intro none
    obtain ⟨before, after, parts, opening, ending⟩ := (trimmed_trim text).parts
    rw [parts, none, List.append_nil]
    exact List.forall_mem_append.2 ⟨opening, ending⟩
  case mpr =>
    intro blank
    rw [trim, trimStart, List.dropWhile_eq_nil_iff.2 blank]
    rfl

namespace Config

structure Usable (c : Config) : Prop where
  program : ¬ Blank c.interpreter.program
  extensions : c.discovery.extensions ≠ []

instance (c : Config) : Decidable c.Usable :=
  decidable_of_iff (¬ Blank c.interpreter.program ∧ c.discovery.extensions ≠ [])
    ⟨fun ⟨program, extensions⟩ => ⟨program, extensions⟩, fun usable => ⟨usable.1, usable.2⟩⟩

theorem checked_of_usable {c : Config} (usable : c.Usable) : c.checked = .ok c := by
  have program : Text.trim c.interpreter.program.toList ≠ [] :=
    fun none => usable.program (Text.trim_eq_nil_iff.1 none)
  simp [checked, validate, program, usable.extensions, Except.map]

theorem checked_of_not_usable {c : Config} (unusable : ¬ c.Usable) :
    ∃ reason, c.checked = .error (.invalid reason) := by
  unfold checked validate
  split
  next => exact ⟨_, rfl⟩
  next program =>
    split
    next => exact ⟨_, rfl⟩
    next extensions =>
      have said : ¬ Blank c.interpreter.program := fun blank =>
        program (List.isEmpty_iff.2 (Text.trim_eq_nil_iff.2 blank))
      have listed : c.discovery.extensions ≠ [] := fun none =>
        extensions (List.isEmpty_iff.2 none)
      exact absurd ⟨said, listed⟩ unusable

end Config

namespace CommandLine

def Request.layer (request : Request) : Layer where
  program := request.interpreter
  timeoutSecs := request.timeout

-- The text of the settings file: the one that is named, or else the one in the workspace.
def settingsText (site : Site) (request : Request) (roots : List Path) :
    Except IoError (Option String) :=
  match request.config with
  | some file => (site.fs.readText site.here (.ofString file)).map some
  | none =>
    let candidate := (displayBase site roots).join Config.fileName
    if site.fs.isFile site.here candidate then (site.fs.readText site.here candidate).map some
    else .ok none

/-- The command ends with this before anything is discovered. -/
def Refused (result : Except CommandError Completion) : Prop :=
  ∃ error, result = .error error ∧ ∃ reason, error = .settings (.invalid reason) ∧
    error.message = "Error: Invalid configuration: " ++ reason

theorem message_invalid (reason : String) :
    (CommandError.settings (.invalid reason)).message =
      "Error: Invalid configuration: " ++ reason := by
  have parts : "Error: Invalid configuration: " = "Error: " ++ "Invalid configuration: " := by
    decide
  rw [parts, String.append_assoc]
  rfl

theorem withRequest_eq (c : Config) (request : Request) :
    withRequest c request = (request.layer.onto (.ofConfig c)).settle := by
  simp [withRequest, Layer.settle, Layer.onto, Layer.ofConfig, Layer.discovery, Layer.interpreter,
    Request.layer, Option.or_some]

section

variable [Toml.Parser] {site : Site} {request : Request} {roots : List Path} {content : Option String}
  {file : Layer} (env : Environment)

theorem parseFile_of_text {path : Path}
    (read : (site.fs.readText site.here path).map some = .ok content)
    (parsed : Layer.ofFile? content = some file) :
    Config.parseFile site.fs site.here path = .ok file.settle := by
  unfold Config.parseFile
  cases given : site.fs.readText site.here path with
  | error cause =>
    rw [given] at read
    contradiction
  | ok text =>
    rw [given] at read
    obtain rfl : some text = content := Except.ok.inj read
    exact Config.parse_ok_iff.2 ⟨file, parsed, rfl⟩

theorem settingsOf_eq (read : settingsText site request roots = .ok content)
    (parsed : Layer.ofFile? content = some file) :
    settingsOf site env request roots =
      ((Layer.ofEnvironment env).onto file).settle.checked.mapError .settings := by
  have overridden : (Config.overridden (.ok file.settle) env).1 =
      ((Layer.ofEnvironment env).onto file).settle.checked := by
    rw [← Layer.settle_onto_settle, ← Config.override_eq]
    rfl
  unfold settingsText at read
  unfold settingsOf
  cases named : request.config with
  | some path =>
    simp only [named] at read
    simp only [Config.fromFile, parseFile_of_text read parsed, overridden]
  | none =>
    simp only [named] at read
    split at read
    next there => simp only [Config.load, there, if_true, parseFile_of_text read parsed, overridden]
    next absent =>
      obtain rfl : none = content := Except.ok.inj read
      obtain rfl : {} = file := Option.some.inj parsed
      have defaults : ({} : Config) = ({} : Layer).settle := rfl
      simp only [Config.load, absent, Bool.false_eq_true, if_false, defaults, overridden]

theorem runSettings_eq (read : settingsText site request roots = .ok content)
    (parsed : Layer.ofFile? content = some file)
    (usable : ((Layer.ofEnvironment env).onto file).settle.Usable) :
    runSettings site env request roots =
      (request.layer.onto ((Layer.ofEnvironment env).onto file)).settle.checked.mapError
        .settings := by
  have asked := withRequest_eq ((Layer.ofEnvironment env).onto file).settle request
  rw [Layer.settle_onto_settle] at asked
  rw [runSettings, settingsOf_eq env read parsed, Config.checked_of_usable usable, ← asked]
  rfl

-- The command line has not had its say when the layers below it are looked at.
theorem runSettings_of_void (read : settingsText site request roots = .ok content)
    (parsed : Layer.ofFile? content = some file)
    (void : ((Layer.ofEnvironment env).onto file).settle.Usable →
      ¬ (request.layer.onto ((Layer.ofEnvironment env).onto file)).settle.Usable) :
    ∃ reason, runSettings site env request roots = .error (.settings (.invalid reason)) := by
  by_cases usable : ((Layer.ofEnvironment env).onto file).settle.Usable
  case pos =>
    obtain ⟨reason, refused⟩ := Config.checked_of_not_usable (void usable)
    rw [runSettings_eq env read parsed usable, refused]
    exact ⟨reason, rfl⟩
  case neg =>
    obtain ⟨reason, refused⟩ := Config.checked_of_not_usable usable
    rw [runSettings, settingsOf_eq env read parsed, refused]
    exact ⟨reason, rfl⟩

end

theorem runSelected_error {h : Activity.Host Console} {c : Controller} {request : Request}
    {flag : Flag} {s : Engine × Console} {error : CommandError}
    (failed : ((runSelected c request flag).exec h s).1 = .error error) :
    (∃ cause, error = .engine cause) ∨ ∃ cause, error = .selection cause := by
  unfold runSelected at failed
  rw [Activity.exec_bind] at failed
  cases reloaded : (c.reload.exec h s).1 with
  | error cause =>
    rw [reloaded] at failed
    exact .inl ⟨cause, (Except.error.inj failed).symm⟩
  | ok summary =>
    rw [reloaded, Activity.exec_bind] at failed
    cases selected : (Controller.snapshot.exec h (c.reload.exec h s).2).1.select request.suites
        request.tests with
    | error cause =>
      rw [selected] at failed
      exact .inr ⟨cause, (Except.error.inj failed).symm⟩
    | ok scope =>
      simp only [selected, Activity.exec_bind, Activity.exec_pure] at failed
      cases ran : ((c.run scope request.options flag).exec h
          (Controller.snapshot.exec h (c.reload.exec h s).2).2).1 with
      | error cause =>
        rw [ran] at failed
        exact .inl ⟨cause, (Except.error.inj failed).symm⟩
      | ok report =>
        rw [ran] at failed
        contradiction

theorem runOn_not_refused (h : Activity.Host Console) (c : Controller) (request : Request) :
    ¬ Refused (runOn h c request) := by
  rintro ⟨error, ended, reason, rfl, -⟩
  unfold runOn at ended
  cases answer : ((runSelected c request runFlag).exec h ({}, request.console)).1 with
  | error error =>
    simp only [answer] at ended
    obtain rfl : error = .settings (.invalid reason) := Except.error.inj ended
    rcases runSelected_error answer with ⟨cause, same⟩ | ⟨cause, same⟩ <;> cases same
  | ok report =>
    simp only [answer] at ended
    split at ended <;> cases ended

theorem resolveEach_error {site : Site} {paths : List Path} {error : CommandError}
    (failed : resolveEach site paths = .error error) :
    ∃ path cause, error = .cannotOpen path cause := by
  induction paths with
  | nil => contradiction
  | cons path rest ih =>
    rw [resolveEach] at failed
    split at failed
    next cause missing => exact ⟨path, cause, (Except.error.inj failed).symm⟩
    next root found =>
      cases later : resolveEach site rest with
      | error error' =>
        rw [later] at failed
        obtain rfl : error' = error := Except.error.inj failed
        exact ih later
      | ok roots =>
        rw [later] at failed
        contradiction

/-- A run whose paths are there uses what the command line, the environment and the file come to in
this order. It is refused when the program or the extensions that they come to are void, or when the
program is blank before the command line is asked. -/
theorem run_settings [Toml.Parser] [Walker] [Processes] (site : Site) (request : Request) (env : Environment) :
    (∀ error, resolveRoots site (request.paths.map .ofString) = .error error →
      run site env request = .error error ∧ ¬ Refused (run site env request)) ∧
    ∀ roots content file, resolveRoots site (request.paths.map .ofString) = .ok roots →
      settingsText site request roots = .ok content → Layer.ofFile? content = some file →
      let stored := ((Layer.ofEnvironment env).onto file).settle
      let effective := (request.layer.onto ((Layer.ofEnvironment env).onto file)).settle
      (Refused (run site env request) ↔
          Blank effective.interpreter.program ∨ effective.discovery.extensions = [] ∨
            Blank stored.interpreter.program) ∧
        (¬ Blank effective.interpreter.program → effective.discovery.extensions ≠ [] →
          ¬ Blank stored.interpreter.program →
            run site env request = runOn (frontend site effective).host
              { roots, settings := effective.discovery } request) := by
  constructor
  case left =>
    intro error missing
    have ended : run site env request = .error error := by
      rw [run, missing]
      rfl
    refine ⟨ended, ?_⟩
    rintro ⟨error', same, reason, rfl, -⟩
    obtain ⟨path, cause, rfl⟩ := resolveEach_error missing
    cases ended.symm.trans same
  case right =>
    intro roots content file resolved read parsed stored effective
    have same : effective.discovery.extensions = stored.discovery.extensions := rfl
    have steps : run site env request = runSettings site env request roots >>= fun config =>
        runOn (frontend site config).host { roots, settings := config.discovery } request := by
      rw [run, resolved]
      rfl
    have goes (program : ¬ Blank effective.interpreter.program)
        (extensions : effective.discovery.extensions ≠ [])
        (lower : ¬ Blank stored.interpreter.program) :
        run site env request = runOn (frontend site effective).host
          { roots, settings := effective.discovery } request := by
      rw [steps, runSettings_eq env read parsed ⟨lower, same ▸ extensions⟩,
        Config.checked_of_usable ⟨program, extensions⟩]
      rfl
    refine ⟨⟨?void, ?refused⟩, goes⟩
    case void =>
      intro refused
      by_contra! sound
      rw [goes sound.1 sound.2.1 sound.2.2] at refused
      exact runOn_not_refused _ _ _ refused
    case refused =>
      intro void
      have unusable (usable : stored.Usable) : ¬ effective.Usable := fun usable' =>
        void.elim usable'.program fun lower => lower.elim usable'.extensions usable.program
      obtain ⟨reason, refused⟩ := runSettings_of_void env read parsed unusable
      rw [steps, refused]
      exact ⟨.settings (.invalid reason), rfl, reason, rfl, message_invalid reason⟩

theorem run_settings_every_layer :
    let text := "[interpreter]\nprogram = \"scryer\"\nargs = [\"-q\"]\ntimeout_secs = 5\n"
    let site := FileSystem.layout (.ofString "/ws")
      [(.ofString "prologtest.toml", .file (.bytes (Text.toBytes text)))]
    let env : Environment
      | .interpreter => none
      | .timeoutSecs => some "soon"
      | .extensions => some "pl, .pro"
    let request : Request := { verb := .run, interpreter := some "true" }
    let roots := [Path.ofString "/ws"]
    let file : Layer := { program := some "scryer", args := some ["-q"], timeoutSecs := some 5 }
    let effective : Config :=
      { discovery := { extensions := ["pl", "pro"] }
        interpreter := { program := "true", args := ["-q"], timeoutSecs := 5 } }
    resolveRoots site (request.paths.map .ofString) = .ok roots ∧
      settingsText site request roots = .ok (some text) ∧
      Layer.ofFile? (some text) = some file ∧
      ¬ Refused (run site env request) ∧
      run site env request = runOn (frontend site effective).host
        { roots, settings := effective.discovery } request := by
  intro text site env request roots file effective
  have resolved : resolveRoots site (request.paths.map .ofString) = .ok roots := by decide +kernel
  have read : settingsText site request roots = .ok (some text) := by decide +kernel
  have parsed : Layer.ofFile? (some text) = some file := by decide +kernel
  have settled : (request.layer.onto ((Layer.ofEnvironment env).onto file)).settle = effective := by
    decide +kernel
  obtain ⟨refused, goes⟩ :=
    (run_settings site request env).2 roots (some text) file resolved read parsed
  rw [settled] at refused goes
  refine ⟨resolved, read, parsed, ?_, goes (by decide) (by decide) (by decide +kernel)⟩
  rw [refused]
  decide +kernel

theorem blank_program_beats_flag :
    let text := "[interpreter]\nprogram = \"\"\n"
    let site := FileSystem.layout (.ofString "/ws")
      [(.ofString "prologtest.toml", .file (.bytes (Text.toBytes text)))]
    let request : Request := { verb := .run, interpreter := some "true" }
    let file : Layer := { program := some "" }
    let effective := (request.layer.onto ((Layer.ofEnvironment fun _ => none).onto file)).settle
    settingsText site request [.ofString "/ws"] = .ok (some text) ∧
      Layer.ofFile? (some text) = some file ∧
      effective.interpreter.program = "true" ∧ effective.discovery.extensions = ["pl", "plt"] ∧
      run site (fun _ => none) request =
        .error (.settings (.invalid "interpreter.program must not be empty")) ∧
      -- The environment makes the same file good.
      run site (Function.update (fun _ => none) .interpreter (some "true")) { verb := .run } =
        .ok { err := "No tests collected\n" } := by
  decide +kernel

end CommandLine

end TestExplorer
