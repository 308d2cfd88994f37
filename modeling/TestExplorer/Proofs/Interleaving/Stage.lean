import TestExplorer.Proofs.Interleaving.Phase
import TestExplorer.Proofs.Writes

/-!
The stages of a request with respect to the tree. A request writes while it holds the tree, and lets a
document enter in one of two ways: in the place of what it has just evicted, or, while it fills the
tree, wherever the document has not been listed twice. Filling begins with an empty tree and has the
lock of discovery from there to its end. The stage can be read off what a request has done.
-/

set_option autoImplicit false

namespace TestExplorer

inductive Discovering where
  | away
  | inside
  | filling (listed entered : List Path)
  | settling

inductive Holding where
  | away
  | held
  | evicted (path : Path)

structure Stage where
  discovery : Discovering := .away
  tree : Holding := .away
  read : Option (Path × String) := none

namespace Discovering

def cleared : Discovering → Discovering
  | inside => filling [] []
  | other => other

def lists (files : List Path) : Discovering → Discovering
  | filling listed entered => filling (listed ++ files) entered
  | other => other

def enters (path : Path) : Discovering → Discovering
  | filling listed entered => filling listed (entered ++ [path])
  | other => other

def Calm (discovery : Discovering) : Prop :=
  ∀ listed entered, discovery ≠ .filling listed entered

theorem Calm.enters {discovery : Discovering} (calm : discovery.Calm) (path : Path) :
    discovery.enters path = discovery := by
  cases discovery with
  | filling listed entered => exact absurd rfl (calm listed entered)
  | _ => rfl

end Discovering

namespace Stage

def afterState (st : Stage) : StateAction → Stage
  | .acquire .discovery => { st with discovery := .inside }
  | .release .discovery => { st with discovery := .away }
  | .acquire .tree => { st with tree := .held }
  | .release .tree => { st with tree := .away }
  | .clearTree => { st with discovery := st.discovery.cleared }
  | .takeBuffers => { st with discovery := .settling }
  | .evict path => { st with tree := .evicted path }
  | .insert d => { st with discovery := st.discovery.enters d.path, tree := .held }
  | _ => st

def afterHost (st : Stage) : (action : HostAction) → action.Answer → Stage
  | .enumerate _, .ok files => { st with discovery := st.discovery.lists files }
  | .enumerate _, .error _ => st
  | .read path, .ok source => { st with read := some (path, source) }
  | .read _, .error _ => st
  | _, _ => st

@[simp] theorem afterHost_note (st : Stage) (notices : List Notice) (answer : Unit) :
    st.afterHost (.note notices) answer = st := rfl

def after (st : Stage) : Act → Stage
  | .state action _ => st.afterState action
  | .host action answer => st.afterHost action answer
  | .began _ => st

abbrev Texts := Path → String → Prop

def Knows (received : Texts) (st : Stage) (d : Document) : Prop :=
  ∃ source, d = Document.scan d.path source ∧
    (st.read = some (d.path, source) ∨ received d.path source)

/-- How a document enters. Outside the lock of discovery a request puts in place only its own. -/
inductive Enters (own : Path → Prop) (st : Stage) (path : Path) : Prop
  | inPlace : st.tree = .evicted path → st.discovery.Calm → (st.discovery = .away → own path) →
      Enters own st path
  | listed (listed entered : List Path) : st.tree = .held →
      st.discovery = .filling listed entered → (entered ++ [path]).Sublist listed →
      Enters own st path

def Permits (received : Texts) (own : Path → Prop) (st : Stage) : StateAction → Prop
  | .release .discovery => st.discovery ≠ .away
  | .release .tree => st.tree ≠ .away
  | .clearTree => st.tree = .held
  | .takeBuffers => ∃ listed entered, st.discovery = .filling listed entered
  | .evict _ => st.tree = .held
  | .insert d => st.Enters own d.path ∧ st.Knows received d
  | .keepBuffer path source => received path source
  | _ => True

def Sound (received : Texts) : (action : StateAction) → action.Answer → Prop
  | .takeBuffers, buffers => ∀ b ∈ buffers, received b.1 b.2
  | _, _ => True

end Stage

namespace Activity

variable {α β : Type} {received : Stage.Texts} {own : Path → Prop} {ends Q : α → Stage → Prop} {st : Stage}

/-- From stage `st` on, the activity does only what its stages permit, and it ends as `ends` says. -/
def Staged (received : Stage.Texts) (own : Path → Prop) (ends : α → Stage → Prop) : Activity α → Stage → Prop
  | done a, st => ends a st
  | state action next, st => st.Permits received own action ∧
      ∀ answer, Stage.Sound received action answer →
        (next answer).Staged received own ends (st.afterState action)
  | host action next, st =>
      ∀ answer, (next answer).Staged received own ends (st.afterHost action answer)

theorem Staged.bind {ends : β → Stage → Prop} {x : Activity α} {f : α → Activity β}
    (first : x.Staged received own Q st)
    (second : ∀ a st', Q a st' → (f a).Staged received own ends st') :
    (x >>= f).Staged received own ends st := by
  change (x.bind f).Staged received own ends st
  induction x generalizing st with
  | done a => exact second a st first
  | state action next ih => exact ⟨first.1, fun a sound => ih a (first.2 a sound)⟩
  | host action next ih => exact fun a => ih a (first a)

theorem Staged.map {x : Activity α} {keeps : Stage → Prop}
    (staged : x.Staged received own (fun _ st' => keeps st') st) (g : α → β) :
    (g <$> x).Staged received own (fun _ st' => keeps st') st :=
  staged.bind fun _ _ ended => ended

end Activity

/-! ## The stages of discoveries and reconciliations -/

structure Stage.At (st : Stage) (discovery : Discovering) (tree : Holding) : Prop where
  discovery : st.discovery = discovery
  tree : st.tree = tree

section

open Activity

variable {α : Type} {received : Stage.Texts} {own : Path → Prop} {st : Stage}
  {d d' : Discovering}

theorem Stage.At.holding_tree {body : Activity α} (here : st.At d .away)
    (inside : Stage.At { st with tree := .held } d .held →
      body.Staged received own (fun _ st' => st'.discovery = d' ∧ st'.tree ≠ .away)
        { st with tree := .held }) :
    (holding .tree body).Staged received own (fun _ st' => st'.At d' .away) st := by
  refine ⟨trivial, fun _ _ => (inside ⟨here.discovery, rfl⟩).bind ?_⟩
  rintro a st' ⟨same, held⟩
  exact ⟨held, fun _ _ => ⟨same, rfl⟩⟩

theorem Stage.At.holding_discovery {body : Activity α} (here : st.At .away .away)
    (inside : Stage.At { st with discovery := .inside } .inside .away →
      body.Staged received own (fun _ st' => st'.discovery ≠ .away ∧ st'.tree = .away)
        { st with discovery := .inside }) :
    (holding .discovery body).Staged received own (fun _ st' => st'.At .away .away) st := by
  refine ⟨trivial, fun _ _ => (inside ⟨rfl, here.tree⟩).bind ?_⟩
  rintro a st' ⟨held, free⟩
  exact ⟨held, fun _ _ => ⟨rfl, free⟩⟩

theorem staged_scanFile (path : Path) {t : Holding} (here : st.At d t) :
    (scanFile path).Staged received own (fun scanned st' => st'.At d t ∧
      ∀ document, scanned = .ok document → document.path = path ∧ st'.Knows received document)
      st := by
  intro answer
  cases answer with
  | ok source =>
    refine ⟨⟨here.discovery, here.tree⟩, ?_⟩
    rintro document ⟨⟩
    exact ⟨rfl, source, rfl, .inl rfl⟩
  | error cause => exact ⟨here, nofun⟩

theorem staged_insertDocument_inPlace {document : Document}
    (here : st.At d (.evicted document.path)) (calm : d.Calm) (mine : d = .away → own document.path)
    (knows : st.Knows received document) :
    (insertDocument document).Staged received own (fun _ st' => st'.discovery = d ∧ st'.tree ≠ .away)
      st := by
  have enters : st.Enters own document.path := 
    .inPlace here.tree (here.discovery ▸ calm) (here.discovery ▸ mine)
  refine ⟨⟨enters, knows⟩, fun _ _ _ => ⟨?_, nofun⟩⟩
  exact (congrArg (Discovering.enters document.path) here.discovery).trans (calm.enters _)

theorem staged_insertDocument_listed {document : Document} {listed entered : List Path}
    (here : st.At (.filling listed entered) .held)
    (known : (entered ++ [document.path]).Sublist listed) (knows : st.Knows received document) :
    (insertDocument document).Staged received own (fun _ st' =>
      st'.discovery = .filling listed (entered ++ [document.path]) ∧ st'.tree ≠ .away) st := by
  have enters : st.Enters own document.path := .listed listed entered here.tree here.discovery known
  refine ⟨⟨enters, knows⟩, fun _ _ _ => ⟨?_, nofun⟩⟩
  exact congrArg (Discovering.enters document.path) here.discovery

theorem staged_discoverInFile {listed entered : List Path}
    (here : st.At (.filling listed entered) .away) {path : Path}
    (known : (entered ++ [path]).Sublist listed) :
    (discoverInFile path).Staged received own (fun _ st' =>
      st'.At (.filling listed entered) .away ∨
        st'.At (.filling listed (entered ++ [path])) .away) st := by
  refine (staged_scanFile path here).bind ?_
  rintro scanned st' ⟨here', scans⟩
  cases scanned with
  | ok document =>
    obtain ⟨rfl, knows⟩ := scans document rfl
    refine (here'.holding_tree fun held => ?_).bind fun _ _ ended => .inr ended
    exact staged_insertDocument_listed held known knows
  | error error => exact fun _ => .inl here'

theorem staged_discoverFiles (files : List Path) (summary : Summary) {listed entered : List Path}
    (here : st.At (.filling listed entered) .away) (known : (entered ++ files).Sublist listed) :
    (discoverFiles files summary).Staged received own (fun _ st' =>
      ∃ entered', st'.At (.filling listed entered') .away ∧ entered'.Sublist listed) st := by
  induction files generalizing st entered summary with
  | nil => exact ⟨entered, here, by simpa using known⟩
  | cons path rest ih =>
    have all : (entered ++ [path] ++ rest).Sublist listed := by simpa using known
    refine (staged_discoverInFile here ((List.sublist_append_left _ rest).trans all)).bind ?_
    rintro found st' (missed | taken)
    · refine ih _ missed (.trans ?_ known)
      exact (List.sublist_cons_self path rest).append_left entered
    · exact ih _ taken all

theorem staged_discoverRoots (roots : List Path) (summary : Summary) {listed entered : List Path}
    (here : st.At (.filling listed entered) .away) (known : entered.Sublist listed) :
    (discoverRoots roots summary).Staged received own
      (fun _ st' => ∃ listed' entered', st'.At (.filling listed' entered') .away) st := by
  induction roots generalizing st listed entered summary with
  | nil => exact ⟨listed, entered, here⟩
  | cons root rest ih =>
    intro answer
    cases answer with
    | ok files =>
      have here' : Stage.At { st with discovery := st.discovery.lists files }
          (.filling (listed ++ files) entered) .away := ⟨by rw [here.discovery]; rfl, here.tree⟩
      refine (staged_discoverFiles files summary here' (known.append_right files)).bind ?_
      rintro found st' ⟨entered', at', known'⟩
      exact ih found at' known'
    | error error => exact fun _ => ih _ here known

theorem staged_reconcileSource (settings : DiscoverySettings) {path : Path} {source : String}
    (here : st.At d .away) (calm : d.Calm) (mine : d = .away → own path)
    (text : received path source) :
    (reconcileSource settings path source).Staged received own (fun _ st' => st'.At d .away) st := by
  unfold reconcileSource
  split
  next =>
    refine here.holding_tree fun held => ⟨rfl, fun _ _ => ?_⟩
    have evicted : Stage.At { st with tree := .evicted path } d (.evicted path) :=
      ⟨held.discovery, rfl⟩
    exact (staged_insertDocument_inPlace evicted calm mine ⟨source, rfl, .inr text⟩).bind
      fun _ _ ended => ended
  next => exact here

theorem staged_reconcileFile (settings : DiscoverySettings) (path : Path) (here : st.At d .away)
    (calm : d.Calm) (mine : d = .away → own path) :
    (reconcileFile settings path).Staged received own (fun _ st' => st'.At d .away) st := by
  unfold reconcileFile
  split
  next =>
    refine here.holding_tree fun held => ⟨rfl, fun _ _ => ?_⟩
    have evicted : Stage.At { st with tree := .evicted path } d (.evicted path) :=
      ⟨held.discovery, rfl⟩
    refine (staged_scanFile path evicted).bind ?_
    rintro scanned st' ⟨here', scans⟩
    cases scanned with
    | ok document =>
      obtain ⟨rfl, knows⟩ := scans document rfl
      exact (staged_insertDocument_inPlace here' calm mine knows).bind fun _ _ ended => ended
    | error error =>
      refine fun _ => ⟨here'.discovery, ?_⟩
      rw [Stage.afterHost_note, here'.tree]
      nofun
  next => exact here

variable (c : Controller)

theorem staged_applyBuffers (buffers : List (Path × String)) (here : st.At d .away) (calm : d.Calm)
    (inside : d ≠ .away) (texts : ∀ b ∈ buffers, received b.1 b.2) :
    (c.applyBuffers buffers).Staged received own (fun _ st' => st'.At d .away) st := by
  induction buffers generalizing st with
  | nil => exact here
  | cons buffer rest ih =>
    have first : (reconcileSource c.settings buffer.1 buffer.2).Staged received own
        (fun _ st' => st'.At d .away) st :=
      staged_reconcileSource c.settings here calm (fun away => absurd away inside)
        (texts buffer List.mem_cons_self)
    exact (first.map _).bind fun _ _ here' =>
      ih here' fun b member => texts b (List.mem_cons_of_mem _ member)

theorem staged_discoverWorkspace (here : st.At .inside .away) :
    c.discoverWorkspace.Staged received own (fun _ st' => st'.At .settling .away) st := by
  have clearing : (holding .tree (stateStep .clearTree)).Staged received own
      (fun _ st' => st'.At (.filling [] []) .away) st := by
    refine here.holding_tree fun held => ⟨rfl, fun _ _ => ⟨?_, nofun⟩⟩
    exact congrArg Discovering.cleared held.discovery
  refine clearing.bind fun _ st₁ filling => ?_
  refine (staged_discoverRoots c.roots {} filling (List.Sublist.refl [])).bind ?_
  rintro summary st₂ ⟨listed, entered, filled⟩
  refine ⟨⟨listed, entered, filled.discovery⟩, fun buffers texts => ?_⟩
  have settling : Stage.At { st₂ with discovery := .settling } .settling .away :=
    ⟨rfl, filled.tree⟩
  exact (staged_applyBuffers c buffers settling nofun nofun texts).bind fun _ _ ended => ended

/-! ## The stages of requests -/

theorem staged_ensureDiscovered (here : st.At .away .away) :
    c.ensureDiscovered.Staged received own (fun _ st' => st'.At .away .away) st := by
  refine here.holding_discovery fun inside => ⟨trivial, fun discovered _ => ?_⟩
  cases discovered with
  | true => exact ⟨nofun, inside.tree⟩
  | false =>
    refine ((staged_discoverWorkspace c inside).map _).bind fun _ st' settled => ?_
    exact ⟨trivial, fun _ _ => ⟨settled.discovery ▸ nofun, settled.tree⟩⟩

theorem Activity.Staged.live {body : Activity (Except EngineError α)}
    (staged : body.Staged received own (fun _ st' => st'.At .away .away) st)
    (here : st.At .away .away) :
    (Controller.live body).Staged received own (fun _ st' => st'.At .away .away) st := by
  refine ⟨trivial, fun disposed _ => ?_⟩
  cases disposed with
  | true => exact here
  | false => exact staged

theorem staged_readTree (here : st.At .away .away) :
    (holding .tree (stateStep .readTree)).Staged received own (fun _ st' => st'.At .away .away) st :=
  here.holding_tree fun held => ⟨trivial, fun _ _ => ⟨held.discovery, nofun⟩⟩

theorem staged_resolve (id : Option String) (here : st.At .away .away) :
    (c.resolve id).Staged received own (fun _ st' => st'.At .away .away) st := by
  refine Staged.live ?_ here
  refine (staged_ensureDiscovered c here).bind fun _ st₁ here₁ => ?_
  refine (staged_readTree here₁).bind fun tree st₂ here₂ => ?_
  cases id with
  | none => exact here₂
  | some id => exact here₂

theorem staged_reload (here : st.At .away .away) :
    c.reload.Staged received own (fun _ st' => st'.At .away .away) st := by
  refine Staged.live (here.holding_discovery fun inside => ?_) here
  refine (staged_discoverWorkspace c inside).bind fun summary st' settled => ?_
  exact ⟨trivial, fun _ _ => ⟨settled.discovery ▸ nofun, settled.tree⟩⟩

theorem staged_documentChanged {path : Path} (mine : own path) (here : st.At .away .away) :
    (c.documentChanged path).Staged received own (fun _ st' => st'.At .away .away) st := by
  refine Staged.live ?_ here
  refine Staged.bind (here.holding_discovery fun inside => ⟨trivial, fun discovered _ => ?_⟩)
    fun _ st' here' => staged_reconcileFile c.settings path here' nofun fun _ => mine
  cases discovered with
  | true => exact ⟨nofun, inside.tree⟩
  | false => exact ⟨trivial, fun _ _ => ⟨nofun, inside.tree⟩⟩

theorem staged_documentEdited {path : Path} {source : String} (mine : own path)
    (text : received path source) (here : st.At .away .away) :
    (c.documentEdited path source).Staged received own (fun _ st' => st'.At .away .away) st := by
  refine Staged.live ?_ here
  refine Staged.bind (here.holding_discovery fun inside => ⟨trivial, fun discovered _ => ?_⟩)
    fun _ st' here' => (staged_reconcileSource c.settings here' nofun (fun _ => mine) text).bind
      fun _ _ ended => ended
  cases discovered with
  | true => exact ⟨nofun, inside.tree⟩
  | false =>
    cases c.recognizes path with
    | true => exact ⟨text, fun _ _ => ⟨nofun, inside.tree⟩⟩
    | false => exact ⟨nofun, inside.tree⟩

theorem staged_runOne (item : WorkItem) :
    (runOne item).Staged received own (fun _ st' => st' = st) st :=
  fun _ _ => rfl

theorem staged_runItems (options : RunOptions) (flag : Flag) (items : List WorkItem)
    (session : Session) (report : Report) :
    (runItems options flag items session report).Staged received own (fun _ st' => st' = st) st := by
  induction items generalizing session report with
  | nil => rfl
  | cons item rest ih =>
    refine ⟨trivial, fun raised _ => ?_⟩
    cases raised with
    | true => rfl
    | false =>
      refine fun _ => (staged_runOne item).bind ?_
      rintro outcome st' rfl
      dsimp only
      split
      next =>
        intro _
        split
        next => exact ⟨trivial, fun _ _ => ih _ _⟩
        next => exact ih _ _
      next => exact ih _ _

theorem staged_runScope (scope : Scope) (options : RunOptions) (flag : Flag)
    (here : st.At .away .away) :
    (runScope scope options flag).Staged received own (fun _ st' => st'.At .away .away) st := by
  have planned : (planned scope options).Staged received own (fun _ st' => st'.At .away .away) st :=
    (staged_readTree here).bind fun _ _ here' _ => here'
  refine planned.bind fun items st' here' => ?_
  refine fun _ => (staged_runItems options flag items _ _).bind ?_
  rintro ⟨session, report⟩ _ rfl
  exact fun _ => here'

theorem staged_turn (scope : Scope) (options : RunOptions) (flag : Flag)
    (here : st.At .away .away) :
    (Controller.turn scope options flag).Staged received own (fun _ st' => st'.At .away .away)
      st := by
  refine ⟨trivial, fun _ _ => ⟨trivial, fun _ _ => ?_⟩⟩
  refine Staged.bind (Q := fun _ st' => st'.At .away .away) ?_ fun _ _ ended =>
    ⟨trivial, fun _ _ => ended⟩
  exact (staged_runScope scope options flag here).bind fun _ _ ended => ⟨trivial, fun _ _ => ended⟩

theorem staged_run (scope : Scope) (options : RunOptions) (flag : Flag) (here : st.At .away .away) :
    (c.run scope options flag).Staged received own (fun _ st' => st'.At .away .away) st :=
  Staged.live ((staged_ensureDiscovered c here).bind fun _ _ here' =>
    staged_turn scope options flag here') here

def Task.Reconciles : Task → Path → Prop
  | changed known, path => known = path
  | edited known _, path => known = path
  | _, _ => False

theorem Task.staged (task : Task)
    (text : ∀ path source, task = .edited path source → received path source) :
    (task.activity c).Staged received task.Reconciles (fun _ st' => st'.At .away .away) {} := by
  have idle : Stage.At {} .away .away := ⟨rfl, rfl⟩
  cases task with
  | run scope options flag => exact (staged_run c scope options flag idle).map _
  | cancel => exact ⟨trivial, fun _ _ => idle⟩
  | resolve id => exact (staged_resolve c id idle).map _
  | reload => exact (staged_reload c idle).map _
  | changed path => exact (staged_documentChanged c rfl idle).map _
  | edited path source => exact (staged_documentEdited c rfl (text path source rfl) idle).map _
  | dispose =>
    refine Staged.map ?_ _
    refine ⟨trivial, fun disposed _ => ?_⟩
    cases disposed with
    | true => exact idle
    | false =>
      refine ⟨trivial, fun _ _ => ?_⟩
      exact idle.holding_tree fun held => ⟨rfl, fun _ _ => ⟨rfl, nofun⟩⟩

end

end TestExplorer
