import TestExplorer.Controller.Interleaving
import TestExplorer.Proofs.Requests

/-!
The phases of a request with respect to the lock of runs: a run takes the lock, makes its flag the
active one, looks at the flag before each launch, and withdraws the flag before it gives the lock
back. No other request takes the lock. The phase can be read off what a request has done.
-/

set_option autoImplicit false

namespace TestExplorer

inductive Phase where
  | outside
  | entered
  | active
  | checked
  | launching
  | closing
  | left
  deriving DecidableEq

namespace Phase

def holdsLock : Phase → Bool
  | outside => false
  | left => false
  | _ => true

def isActive : Phase → Bool
  | active => true
  | checked => true
  | launching => true
  | _ => false

end Phase

namespace Act

def leadsTo : Act → Option Phase
  | state (.acquire .runs) _ => some .entered
  | state (.setActive (some _)) _ => some .active
  | state (.isRaised _) true => some .active
  | state (.isRaised _) false => some .checked
  | began _ => some .launching
  | host (.launch _) _ => some .active
  | state (.setActive none) _ => some .closing
  | state (.release .runs) _ => some .left
  | _ => none

def isLaunch : Act → Bool
  | began _ => true
  | host (.launch _) _ => true
  | _ => false

theorem leadsTo_documents {action : StateAction} (about : action.isAboutDocuments)
    (answer : action.Answer) : (state action answer).leadsTo = none := by
  cases action with
  | acquire lock => cases lock <;> first | rfl | exact about.elim
  | release lock => cases lock <;> first | rfl | exact about.elim
  | setActive flag => exact about.elim
  | isRaised flag => exact about.elim
  | _ => rfl

theorem leadsTo_host {action : HostAction} (quiet : action.invocation? = none)
    (answer : action.Answer) : (host action answer).leadsTo = none := by
  cases action with
  | launch invocation => cases quiet
  | _ => rfl

theorem isLaunch_host {action : HostAction} (quiet : action.invocation? = none)
    (answer : action.Answer) : (host action answer).isLaunch = false := by
  cases action with
  | launch invocation => cases quiet
  | _ => rfl

theorem leadsTo_of_isLaunch {act : Act} (launch : act.isLaunch = true) : act.leadsTo ≠ none := by
  cases act with
  | state action answer => cases launch
  | host action answer =>
    cases action with
    | launch invocation => exact fun none => by cases none
    | _ => cases launch
  | began invocation => exact fun none => by cases none

end Act

namespace Phase

def after (p : Phase) (act : Act) : Phase :=
  act.leadsTo.getD p

/-- What a request with flag `own` may do in a phase. -/
inductive Permits (own : Option Flag) : Phase → Act → Prop
  | documents {p : Phase} {action : StateAction} (answer : action.Answer) :
      action.isAboutDocuments → p ≠ launching → Permits own p (.state action answer)
  | host {p : Phase} {action : HostAction} (answer : action.Answer) :
      action.invocation? = none → p ≠ launching → Permits own p (.host action answer)
  | cancel (answer : Bool) : Permits own outside (.state .cancelActive answer)
  | dispose (answer : Bool) : Permits own outside (.state .markDisposed answer)
  | enter : Permits own outside (.state (.acquire .runs) ())
  | publish {flag : Flag} : own = some flag →
      Permits own entered (.state (.setActive (some flag)) ())
  | look {flag : Flag} (raised : Bool) : own = some flag →
      Permits own active (.state (.isRaised flag) raised)
  | begin (invocation : Invocation) : Permits own checked (.began invocation)
  | finish (invocation : Invocation) (result : LaunchResult) :
      Permits own launching (.host (.launch invocation) result)
  | stop {flag : Flag} : own = some flag → Permits own active (.state (.raise flag) ())
  | withdraw : Permits own active (.state (.setActive none) ())
  | leave : Permits own closing (.state (.release .runs) ())

def MayAsk (p : Phase) : HostAction → Prop
  | .launch _ => p = checked ∨ p = launching
  | _ => p ≠ launching

theorem after_documents (p : Phase) {action : StateAction} (about : action.isAboutDocuments)
    (answer : action.Answer) : p.after (.state action answer) = p := by
  simp [after, Act.leadsTo_documents about]

theorem after_host (p : Phase) {action : HostAction} (quiet : action.invocation? = none)
    (answer : action.Answer) : p.after (.host action answer) = p := by
  simp [after, Act.leadsTo_host quiet]

variable {own : Option Flag} {p : Phase} {act : Act}

theorem Permits.launching_iff (permitted : p.Permits own act) :
    p.after act = launching ↔ act.isBeginning = true := by
  cases permitted with
  | documents answer about idle => simp [after_documents p about, idle, Act.isBeginning]
  | host answer quiet idle => simp [after_host p quiet, idle, Act.isBeginning]
  | look raised own => cases raised <;> simp [after, Act.leadsTo, Act.isBeginning]
  | _ => simp [after, Act.leadsTo, Act.isBeginning]

end Phase

namespace Activity

variable {α β : Type}

/-- From phase `p` on, the activity does only what its phases permit, and it ends as `ends` says. -/
def Disciplined (own : Option Flag) (ends : α → Phase → Prop) : Activity α → Phase → Prop
  | done a, p => ends a p
  | state action next, p => ∀ answer, p.Permits own (.state action answer) ∧
      (next answer).Disciplined own ends (p.after (.state action answer))
  | host action next, p => p.MayAsk action ∧
      ∀ answer, (next answer).Disciplined own ends (p.after (.host action answer))

variable {own : Option Flag} {ends middle : α → Phase → Prop} {p : Phase}

theorem Disciplined.bind {ends : β → Phase → Prop} {x : Activity α} {f : α → Activity β}
    (first : x.Disciplined own middle p)
    (second : ∀ a q, middle a q → (f a).Disciplined own ends q) :
    (x >>= f).Disciplined own ends p := by
  change (x.bind f).Disciplined own ends p
  induction x generalizing p with
  | done a => exact second a p first
  | state action next ih => exact fun a => ⟨(first a).1, ih a (first a).2⟩
  | host action next ih => exact ⟨first.1, fun a => ih a (first.2 a)⟩

theorem AboutDocuments.disciplined {x : Activity α} (about : x.AboutDocuments)
    (idle : p ≠ .launching) (ended : ∀ a, ends a p) : x.Disciplined own ends p := by
  induction x with
  | done a => exact ended a
  | state action next ih =>
    intro answer
    rw [p.after_documents about.1]
    exact ⟨.documents answer about.1 idle, ih answer (about.2 answer)⟩
  | host action next ih =>
    cases action with
    | launch invocation => exact about.1.elim
    | _ => exact ⟨idle, fun answer => ih answer (about.2 answer)⟩

theorem AboutDocuments.andThen {ends : β → Phase → Prop} {x : Activity α} {f : α → Activity β}
    (about : x.AboutDocuments) (idle : p ≠ .launching)
    (second : ∀ a, (f a).Disciplined own ends p) : (x >>= f).Disciplined own ends p := by
  have first : x.Disciplined own (fun _ q => q = p) p := about.disciplined idle fun _ => rfl
  exact first.bind fun a q same => same ▸ second a

end Activity

section

open Activity

theorem disciplined_runOne {flag : Flag} (item : WorkItem) :
    (runOne item).Disciplined (some flag) (fun _ q => q = .active) .checked :=
  ⟨.inl rfl, fun _ => ⟨nofun, fun _ => rfl⟩⟩

theorem disciplined_runItems (options : RunOptions) (flag : Flag) (items : List WorkItem)
    (session : Session) (report : Report) :
    (runItems options flag items session report).Disciplined (some flag)
      (fun _ q => q = .active) .active := by
  induction items generalizing session report with
  | nil => rfl
  | cons item rest ih =>
    intro raised
    refine ⟨.look raised rfl, ?_⟩
    cases raised with
    | true => rfl
    | false =>
      refine ⟨nofun, fun _ => (disciplined_runOne item).bind ?_⟩
      rintro outcome q rfl
      dsimp only
      split
      next =>
        refine ⟨nofun, fun _ => ?_⟩
        split
        next => exact fun _ => ⟨.stop rfl, ih _ _⟩
        next => exact ih _ _
      next => exact ih _ _

theorem disciplined_runScope (scope : Scope) (options : RunOptions) (flag : Flag) :
    (runScope scope options flag).Disciplined (some flag) (fun _ q => q = .active) .active := by
  have read : (holding .tree (stateStep .readTree)).AboutDocuments :=
    (within_stateStep trivial).holding .tree trivial trivial
  have planned : (planned scope options).AboutDocuments :=
    read.bind fun tree => ⟨trivial, fun _ => trivial⟩
  refine planned.andThen (by decide) fun items => ?_
  refine ⟨nofun, fun _ => (disciplined_runItems options flag items _ _).bind ?_⟩
  rintro ⟨session, report⟩ q rfl
  exact ⟨nofun, fun _ => rfl⟩

end

-- What is left of a run when the workspace has been discovered.
def Controller.turn (scope : Scope) (options : RunOptions) (flag : Flag) :
    Activity (Except EngineError Report) :=
  holding .runs do
    stateStep (.setActive (some flag))
    let report ← runScope scope options flag
    stateStep (.setActive none)
    pure (.ok report)

def Phase.Over {α : Type} (_ : α) (p : Phase) : Prop :=
  p.holdsLock = false

section

open Activity

theorem Activity.Disciplined.holding_runs {α : Type} {own : Option Flag} {body : Activity α}
    (inside : body.Disciplined own (fun _ q => q = .closing) .entered) :
    (holding .runs body).Disciplined own Phase.Over .outside := by
  refine fun _ => ⟨.enter, inside.bind ?_⟩
  rintro answer q rfl
  exact fun _ => ⟨.leave, rfl⟩

theorem disciplined_turn (scope : Scope) (options : RunOptions) (flag : Flag) :
    (Controller.turn scope options flag).Disciplined (some flag) Phase.Over .outside := by
  refine Disciplined.holding_runs fun _ => ⟨.publish rfl, (disciplined_runScope scope options flag).bind ?_⟩
  rintro report q rfl
  exact fun _ => ⟨.withdraw, rfl⟩

variable (c : Controller)

theorem disciplined_run (scope : Scope) (options : RunOptions) (flag : Flag) :
    (c.run scope options flag).Disciplined (some flag) Phase.Over .outside := by
  intro disposed
  refine ⟨.documents disposed trivial nofun, ?_⟩
  cases disposed with
  | true => rfl
  | false =>
    exact (aboutDocuments_ensureDiscovered c).andThen (by decide) fun _ =>
      disciplined_turn scope options flag

theorem disciplined_dispose {own : Option Flag} :
    Controller.dispose.Disciplined own Phase.Over .outside := by
  intro disposed
  refine ⟨.dispose disposed, ?_⟩
  cases disposed with
  | true => rfl
  | false =>
    refine fun active => ⟨.cancel active, ?_⟩
    have cleared : (holding .tree (stateStep .clearTree)).AboutDocuments :=
      (within_stateStep trivial).holding .tree trivial trivial
    exact cleared.disciplined nofun fun _ => rfl

theorem Activity.Disciplined.reply {α β : Type} {own : Option Flag} {x : Activity α}
    (disciplined : x.Disciplined own Phase.Over .outside) (g : α → β) :
    (g <$> x).Disciplined own Phase.Over .outside :=
  disciplined.bind fun _ _ ended => ended

theorem Activity.AboutDocuments.outside {α : Type} {own : Option Flag} {x : Activity α}
    (about : x.AboutDocuments) : x.Disciplined own Phase.Over .outside :=
  about.disciplined (by decide) fun _ => rfl

theorem Task.disciplined (task : Task) :
    (task.activity c).Disciplined task.flag? Phase.Over .outside := by
  cases task with
  | run scope options flag => exact (disciplined_run c scope options flag).reply _
  | cancel => exact fun active => ⟨.cancel active, rfl⟩
  | resolve id => exact (aboutDocuments_resolve c id).outside.reply _
  | reload => exact (aboutDocuments_reload c).outside.reply _
  | changed path => exact (aboutDocuments_documentChanged c path).outside.reply _
  | edited path source => exact (aboutDocuments_documentEdited c path source).outside.reply _
  | dispose => exact disciplined_dispose.reply _

end

end TestExplorer
