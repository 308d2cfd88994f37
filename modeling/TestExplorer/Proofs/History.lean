import TestExplorer.FileSystem.Layout
import TestExplorer.Proofs.Discovery

set_option autoImplicit false

namespace TestExplorer

inductive Request where
  | resolve (id : Option String)
  | reload
  | run (scope : Scope) (options : RunOptions) (flag : Flag)
  | cancel
  | changed (path : Path)
  | edited (path : Path) (source : String)

-- A request with the world that it meets.
structure Call (σ : Type) where
  request : Request
  world : σ

namespace Request

def activity (c : Controller) : Request → Activity Unit
  | resolve id => discard (c.resolve id)
  | reload => discard c.reload
  | run scope options flag => discard (c.run scope options flag)
  | cancel => discard Controller.cancel
  | changed path => discard (c.documentChanged path)
  | edited path source => discard (c.documentEdited path source)

def path? : Request → Option Path
  | changed path => some path
  | edited path _ => some path
  | _ => none

def discovers : Request → Bool
  | resolve _ => true
  | reload => true
  | run _ _ _ => true
  | _ => false

end Request

variable {σ : Type}

namespace Controller

variable (c : Controller)

-- Histories are read from the latest call back to the first.
def after (h : Activity.Host σ) : List (Call σ) → Engine
  | [] => {}
  | call :: earlier => ((call.request.activity c).exec h (after h earlier, call.world)).2.1

def discoveredBy (calls : List (Call σ)) : Bool :=
  calls.any (·.request.discovers)

def bufferAfter (p : Path) : List (Call σ) → Option String
  | [] => none
  | call :: earlier =>
    match call.request with
    | .changed q => if q = p then none else bufferAfter p earlier
    | .edited q source =>
      if q = p ∧ c.recognizes p then some source else bufferAfter p earlier
    | _ => bufferAfter p earlier

/-- The text by which a document stands in the tree after the calls. The first discovery prefers
buffers, and every other discovery goes by the files alone. -/
def textAfter (disk : σ → Disk) (p : Path) : List (Call σ) → Option String
  | [] => none
  | call :: earlier =>
    match call.request with
    | .resolve _ | .run _ _ _ =>
      if discoveredBy earlier then textAfter disk p earlier
      else (c.bufferAfter p earlier).or ((disk call.world).listedText c.roots p)
    | .reload =>
      if discoveredBy earlier then (disk call.world).listedText c.roots p
      else (c.bufferAfter p earlier).or ((disk call.world).listedText c.roots p)
    | .cancel => textAfter disk p earlier
    | .changed q =>
      if q = p ∧ c.recognizes p then (disk call.world).text q else textAfter disk p earlier
    | .edited q source =>
      if q = p ∧ c.recognizes p then some source else textAfter disk p earlier

/-- Calls that name documents as `docs` does, on disks where the roots list each file once. -/
structure Consistent (docs : Path → Prop) (disk : σ → Disk) (call : Call σ) : Prop where
  named : ∀ p ∈ call.request.path?, docs p
  listed : ∀ p ∈ (disk call.world).files c.roots, docs p
  once : ((disk call.world).files c.roots).Nodup

structure Follows (docs : Path → Prop) (disk : σ → Disk) (calls : List (Call σ)) (e : Engine) :
    Prop where
  live : e.disposed = false
  discovered : e.discovered = discoveredBy calls
  composed : e.tree.Composed docs fun p => c.textAfter disk p calls
  buffered : c.Buffered docs e.buffers fun p =>
    if discoveredBy calls then none else c.bufferAfter p calls

end Controller

section

open Activity

theorem keeps_runOne {γ : Type} {view : Engine → γ} (item : WorkItem) : (runOne item).Keeps view :=
  fun _ => fun _ => trivial

theorem keeps_runItems (options : RunOptions) (flag : Flag) (items : List WorkItem)
    (session : Session) (report : Report) :
    (runItems options flag items session report).Keeps Engine.core := by
  induction items generalizing session report with
  | nil => trivial
  | cons item rest ih =>
    refine Keeps.bind (keeps_stateStep fun _ => rfl) fun raised => ?_
    split
    next => trivial
    next =>
      intro _
      refine (keeps_runOne item).bind fun outcome => ?_
      split
      split
      next =>
        intro _
        split
        next => exact And.intro (fun _ => rfl) fun _ => ih _ _
        next => exact ih _ _
      next => exact ih _ _

theorem keeps_runScope (scope : Scope) (options : RunOptions) (flag : Flag) :
    (runScope scope options flag).Keeps Engine.core := by
  have looked : (planned scope options).Keeps Engine.core :=
    ((keeps_stateStep fun _ => rfl).holding .tree).bind fun _ => fun _ => trivial
  refine looked.bind fun items => fun _ => ?_
  exact (keeps_runItems options flag items _ _).bind fun _ => fun _ => trivial

end

namespace Controller

variable {c : Controller} {docs : Path → Prop} {disk : σ → Disk} {calls : List (Call σ)}
  {e : Engine}

theorem follows_empty : c.Follows docs disk ([] : List (Call σ)) {} where
  live := rfl
  discovered := rfl
  composed := Tree.composed_empty docs
  buffered := c.buffered_empty docs

theorem Follows.congr {e' : Engine} (follows : c.Follows docs disk calls e)
    (same : e'.core = e.core) : c.Follows docs disk calls e' := by
  have tree : e'.tree = e.tree := congrArg (·.1) same
  have discovered : e'.discovered = e.discovered := congrArg (·.2.1) same
  have buffers : e'.buffers = e.buffers := congrArg (·.2.2.1) same
  have disposed : e'.disposed = e.disposed := congrArg (·.2.2.2) same
  exact ⟨disposed ▸ follows.live, discovered ▸ follows.discovered, tree ▸ follows.composed,
    buffers ▸ follows.buffered⟩

theorem Follows.cancel {h : Activity.Host σ} {w : σ} (follows : c.Follows docs disk calls e) :
    c.Follows docs disk (⟨.cancel, w⟩ :: calls) (Controller.cancel.exec h (e, w)).2.1 := by
  have quiet : c.Follows docs disk (⟨.cancel, w⟩ :: calls) e :=
    ⟨follows.live, follows.discovered, follows.composed, follows.buffered⟩
  refine quiet.congr ?_
  cases active : e.active <;>
    simp [Controller.cancel, Engine.perform, active, Engine.raise, Engine.core, Engine.status]

theorem exec_live {α : Type} (h : Activity.Host σ) (live : e.disposed = false)
    (body : Activity (Except EngineError α)) (w : σ) :
    (Controller.live body).exec h (e, w) = body.exec h (e, w) := by
  simp [Controller.live, Engine.perform, live]

section

variable {h : Activity.Host σ} (serves : h.Serves disk) (documents : Documents docs)

include serves documents

theorem Follows.discoverWorkspace {w : σ} (follows : c.Follows docs disk calls e)
    (listed : ∀ p ∈ (disk w).files c.roots, docs p) (once : ((disk w).files c.roots).Nodup) :
    let after := (c.discoverWorkspace.exec h (e, w)).2.1
    after.tree.Composed docs (fun p =>
        (if discoveredBy calls then none else c.bufferAfter p calls).or
          ((disk w).listedText c.roots p)) ∧
      after.status = (discoveredBy calls, [], false) := by
  have done := serves.discoverWorkspace documents (s := (e, w)) follows.buffered once listed
  rwa [follows.discovered, follows.live] at done

-- After `ensureDiscovered` the workspace has been discovered, by this call or by an earlier one.
theorem Follows.ensureDiscovered {w : σ} (follows : c.Follows docs disk calls e)
    (listed : ∀ p ∈ (disk w).files c.roots, docs p) (once : ((disk w).files c.roots).Nodup) :
    let after := (c.ensureDiscovered.exec h (e, w)).2.1
    after.tree.Composed docs (fun p =>
        if discoveredBy calls then c.textAfter disk p calls
        else (c.bufferAfter p calls).or ((disk w).listedText c.roots p)) ∧
      after.discovered = true ∧ after.disposed = false ∧
        c.Buffered docs after.buffers fun _ => none := by
  intro after
  cases known : discoveredBy calls with
  | true =>
    have discovered : e.discovered = true := follows.discovered.trans known
    have same : after = e := by
      simp [after, Controller.ensureDiscovered, Engine.perform, discovered]
    have buffered := follows.buffered
    simp only [known, if_true] at buffered
    rw [same]
    exact ⟨by simpa [known] using follows.composed, discovered, follows.live, buffered⟩
  | false =>
    have discovered : e.discovered = false := follows.discovered.trans known
    let found := (c.discoverWorkspace.exec h (e, w)).2.1
    have marked : after = { found with discovered := true } := by
      simp [after, found, Controller.ensureDiscovered, Engine.perform, discovered]
    obtain ⟨composed, status⟩ := follows.discoverWorkspace serves documents listed once
    have buffers : found.buffers = [] := congrArg (·.2.1) status
    have disposed : found.disposed = false := congrArg (·.2.2) status
    rw [marked]
    refine ⟨by simpa [known] using composed, rfl, disposed, ?_⟩
    simpa [buffers] using c.buffered_empty docs

theorem Follows.resolve {w : σ} (follows : c.Follows docs disk calls e) (id : Option String)
    (consistent : c.Consistent docs disk ⟨.resolve id, w⟩) :
    c.Follows docs disk (⟨.resolve id, w⟩ :: calls) ((c.resolve id).exec h (e, w)).2.1 := by
  have ⟨composed, discovered, live, buffered⟩ :=
    follows.ensureDiscovered serves documents consistent.listed consistent.once
  have same : ((c.resolve id).exec h (e, w)).2.1 = (c.ensureDiscovered.exec h (e, w)).2.1 := by
    rw [Controller.resolve, exec_live h follows.live]
    cases id <;> simp [Engine.perform]
  rw [same]
  exact ⟨live, discovered, composed, buffered⟩

theorem Follows.run {w : σ} (follows : c.Follows docs disk calls e) (scope : Scope)
    (options : RunOptions) (flag : Flag)
    (consistent : c.Consistent docs disk ⟨.run scope options flag, w⟩) :
    c.Follows docs disk (⟨.run scope options flag, w⟩ :: calls)
      ((c.run scope options flag).exec h (e, w)).2.1 := by
  have ⟨composed, discovered, live, buffered⟩ :=
    follows.ensureDiscovered serves documents consistent.listed consistent.once
  have ensured : c.Follows docs disk (⟨.run scope options flag, w⟩ :: calls)
      (c.ensureDiscovered.exec h (e, w)).2.1 := ⟨live, discovered, composed, buffered⟩
  refine ensured.congr ?_
  let after := (c.ensureDiscovered.exec h (e, w)).2
  let running : Engine × σ := ({ after.1 with active := some flag }, after.2)
  have kept := serves.exec_core (keeps_runScope scope options flag) running
  rw [Controller.run, exec_live h follows.live]
  simpa [Engine.perform, Engine.core, Engine.status, running, after] using kept

theorem Follows.reload {w : σ} (follows : c.Follows docs disk calls e)
    (consistent : c.Consistent docs disk ⟨.reload, w⟩) :
    c.Follows docs disk (⟨.reload, w⟩ :: calls) (c.reload.exec h (e, w)).2.1 := by
  have ⟨composed, status⟩ :=
    follows.discoverWorkspace serves documents consistent.listed consistent.once
  let found := (c.discoverWorkspace.exec h (e, w)).2.1
  have buffers : found.buffers = [] := congrArg (·.2.1) status
  have disposed : found.disposed = false := congrArg (·.2.2) status
  have marked : (c.reload.exec h (e, w)).2.1 = { found with discovered := true } := by
    rw [Controller.reload, exec_live h follows.live]
    simp [found, Engine.perform]
  rw [marked]
  refine ⟨disposed, rfl, ?composed, ?buffered⟩
  case composed =>
    refine composed.congr fun p => ?_
    cases known : discoveredBy calls <;> simp [textAfter, known]
  case buffered => simpa [buffers, discoveredBy, Request.discovers] using c.buffered_empty docs

-- A request about a document, once it has seen to the buffers, is a reconciliation.
theorem Follows.update {w : σ} {u : Update} {call : Call σ} {marked : Engine}
    (follows : c.Follows docs disk calls e) (doc : docs u.path)
    (same : marked.tree = e.tree ∧ marked.discovered = e.discovered ∧ marked.disposed = e.disposed)
    (buffered : c.Buffered docs marked.buffers fun p =>
      if discoveredBy calls then none else c.bufferAfter p (call :: calls))
    (quiet : call.request.discovers = false)
    (text : ∀ p, c.textAfter disk p (call :: calls) =
      if u.path = p ∧ c.recognizes p then (u.text (fun w p => (disk w).read p) w).toOption
      else c.textAfter disk p calls) :
    c.Follows docs disk (call :: calls) ((u.run c.settings).exec h (marked, w)).2.1 := by
  obtain ⟨tree, discovered, disposed⟩ := same
  let after := ((u.run c.settings).exec h (marked, w)).2.1
  have kept : (u.run c.settings).Keeps Engine.status := by
    cases u with
    | edited path source => exact (keeps_reconcileSource c.settings path source).map _
    | changed path => exact keeps_reconcileFile c.settings path
  have status : after.status = marked.status := serves.exec_status kept (marked, w)
  have live : after.disposed = marked.disposed := congrArg (·.2.2) status
  have found : after.discovered = marked.discovered := congrArg (·.1) status
  have buffers : after.buffers = marked.buffers := congrArg (·.2.1) status
  have known : discoveredBy (call :: calls) = discoveredBy calls := by
    simp [discoveredBy, quiet]
  have composed : marked.tree.Composed docs fun p => c.textAfter disk p calls :=
    tree ▸ follows.composed
  refine ⟨live.trans (disposed.trans follows.live), ?discovered, ?composed, ?buffered⟩
  case discovered => rw [known, ← follows.discovered, ← discovered, ← found]
  case buffered =>
    rw [show ((u.run c.settings).exec h (marked, w)).2.1.buffers = _ from buffers, known]
    exact buffered
  case composed =>
    by_cases recognized : c.recognizes u.path
    · have updated := serves.reading.update recognized (documents.plain u.path doc)
        (composed.owned documents) (s := (marked, w))
      rw [updated.2]
      refine (composed.replaced documents doc _).congr fun p => ?_
      rw [text p]
      by_cases here : p = u.path
      · simp [here, recognized]
      · have other : ¬ u.path = p := fun found => here found.symm
        simp [here, other]
    · have ignored : c.settings.recognizes u.path = false := by
        simpa [Controller.recognizes] using recognized
      have idle : after = marked := by
        cases u <;>
          simp_all [after, Update.run, Update.path, reconcileSource, reconcileFile]
      rw [show ((u.run c.settings).exec h (marked, w)).2.1 = _ from idle]
      refine composed.congr fun p => ?_
      have other : ¬ (u.path = p ∧ c.recognizes p) := fun both =>
        recognized (both.1 ▸ both.2)
      rw [text p, if_neg other]

theorem Follows.changed {w : σ} (follows : c.Follows docs disk calls e) (path : Path)
    (consistent : c.Consistent docs disk ⟨.changed path, w⟩) :
    c.Follows docs disk (⟨.changed path, w⟩ :: calls)
      ((c.documentChanged path).exec h (e, w)).2.1 := by
  have doc : docs path := consistent.named path rfl
  let marked : Engine :=
    if discoveredBy calls then e else { e with buffers := Engine.withoutBuffer path e.buffers }
  have run : ((c.documentChanged path).exec h (e, w)).2.1 =
      (((Update.changed path).run c.settings).exec h (marked, w)).2.1 := by
    rw [Controller.documentChanged, exec_live h follows.live]
    cases known : discoveredBy calls <;>
      simp [marked, known, follows.discovered, Engine.perform, Update.run]
  rw [run]
  refine follows.update serves documents doc ?same ?buffered rfl fun p => rfl
  case same => cases known : discoveredBy calls <;> simp [marked, known]
  case buffered =>
    have buffered := follows.buffered
    cases known : discoveredBy calls with
    | true => simpa [marked, known] using buffered
    | false =>
      simp only [known] at buffered
      have dropped := buffered.withoutBuffer documents doc
      rw [show marked.buffers = Engine.withoutBuffer path e.buffers by simp [marked, known]]
      refine dropped.congr fun p => ?_
      by_cases here : p = path
      · simp [bufferAfter, here]
      · have other : ¬ path = p := fun found => here found.symm
        simp [bufferAfter, here, other]

theorem Follows.edited {w : σ} (follows : c.Follows docs disk calls e) (path : Path)
    (source : String) (consistent : c.Consistent docs disk ⟨.edited path source, w⟩) :
    c.Follows docs disk (⟨.edited path source, w⟩ :: calls)
      ((c.documentEdited path source).exec h (e, w)).2.1 := by
  have doc : docs path := consistent.named path rfl
  let marked : Engine :=
    if ¬ discoveredBy calls ∧ c.recognizes path then
      { e with buffers := Engine.withBuffer path source e.buffers } else e
  have run : ((c.documentEdited path source).exec h (e, w)).2.1 =
      (((Update.edited path source).run c.settings).exec h (marked, w)).2.1 := by
    rw [Controller.documentEdited, exec_live h follows.live]
    cases known : discoveredBy calls <;> cases recognized : c.recognizes path <;>
      simp [marked, known, recognized, follows.discovered, Engine.perform, Update.run]
  rw [run]
  refine follows.update serves documents doc ?same ?buffered rfl fun p => rfl
  case same =>
    cases known : discoveredBy calls <;> cases recognized : c.recognizes path <;>
      simp [marked, known, recognized]
  case buffered =>
    have buffered := follows.buffered
    cases known : discoveredBy calls with
    | true => simpa [marked, known] using buffered
    | false =>
      simp only [known] at buffered
      by_cases recognized : c.recognizes path
      · have kept := buffered.withBuffer documents doc recognized source
        rw [show marked.buffers = Engine.withBuffer path source e.buffers by
          simp [marked, known, recognized]]
        refine kept.congr fun p => ?_
        by_cases here : p = path
        · simp [bufferAfter, here, recognized]
        · have other : ¬ path = p := fun found => here found.symm
          simp [bufferAfter, here, other]
      · rw [show marked.buffers = e.buffers by simp [marked, recognized]]
        refine buffered.congr fun p => ?_
        have other : ¬ (path = p ∧ c.recognizes p) := fun both =>
          recognized (both.1 ▸ both.2)
        simp [bufferAfter, other]

theorem Follows.call {call : Call σ} (follows : c.Follows docs disk calls e)
    (consistent : c.Consistent docs disk call) :
    c.Follows docs disk (call :: calls)
      ((call.request.activity c).exec h (e, call.world)).2.1 := by
  obtain ⟨request, w⟩ := call
  cases request with
  | resolve id => simpa [Request.activity] using follows.resolve serves documents id consistent
  | reload => simpa [Request.activity] using follows.reload serves documents consistent
  | run scope options flag =>
    simpa [Request.activity] using follows.run serves documents scope options flag consistent
  | cancel => simpa [Request.activity] using follows.cancel
  | changed path => simpa [Request.activity] using follows.changed serves documents path consistent
  | edited path source =>
    simpa [Request.activity] using follows.edited serves documents path source consistent

end

/-- After any calls the tree holds, for each document, what one text of it gives on its own. -/
theorem after_composed {h : Activity.Host σ} (serves : h.Serves disk) (documents : Documents docs)
    (calls : List (Call σ)) (consistent : ∀ call ∈ calls, c.Consistent docs disk call) :
    (c.after h calls).tree.Composed docs fun p => c.textAfter disk p calls := by
  suffices follows : c.Follows docs disk calls (c.after h calls) from follows.composed
  induction calls with
  | nil => exact follows_empty
  | cons call earlier ih =>
    have before := ih fun call member => consistent call (List.mem_cons_of_mem _ member)
    exact before.call serves documents (consistent call List.mem_cons_self)

theorem after_composed_edit_then_reload :
    let c : Controller := { roots := [.ofString "/ws"], settings := {} }
    let path := Path.ofString "/ws/a.pl"
    let saved := ":- begin_tests(saved).\ntest(x).\n"
    let draft := ":- begin_tests(draft).\ntest(x).\n"
    let site := FileSystem.layout (.ofString "/ws")
      [(.ofString "a.pl", .file (.bytes (Text.toBytes saved)))]
    let world : Rehearsal := { site, controller := c }
    let discovered : List (Call Rehearsal) :=
      [⟨.resolve none, world⟩, ⟨.edited path draft, world⟩]
    let calls := ⟨.reload, world⟩ :: discovered
    Rehearsal.quietHost.Serves Rehearsal.disk ∧ Documents (· = path) ∧
      (∀ call ∈ calls, c.Consistent (· = path) Rehearsal.disk call) ∧
      (c.after Rehearsal.quietHost calls).tree.Composed (· = path)
        (fun p => c.textAfter Rehearsal.disk p calls) ∧
      c.textAfter Rehearsal.disk path discovered = some draft ∧
      c.textAfter Rehearsal.disk path calls = some saved := by
  intro c path saved draft site world discovered calls
  have documents : Documents (· = path) :=
    ⟨by rintro p rfl; decide, by rintro p q rfl rfl _; rfl⟩
  have files : world.disk.files c.roots = [path] := by decide +kernel
  have consistent (call : Call Rehearsal) (member : call ∈ calls) :
      c.Consistent (· = path) Rehearsal.disk call := by
    have world : call.world = world ∧ ∀ p ∈ call.request.path?, p = path := by
      simp only [calls, discovered, List.mem_cons, List.not_mem_nil, or_false] at member
      rcases member with rfl | rfl | rfl <;> simp [Request.path?]
    exact ⟨world.2, by simp [world.1, files], by simp [world.1, files]⟩
  exact ⟨Rehearsal.quietHost_serves, documents, consistent,
    after_composed Rehearsal.quietHost_serves documents calls consistent,
    by decide +kernel, by decide +kernel⟩

end Controller

end TestExplorer
