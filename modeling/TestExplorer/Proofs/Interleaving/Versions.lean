import TestExplorer.Proofs.Interleaving.Overtaking
import TestExplorer.Proofs.Tree.Part

set_option autoImplicit false

namespace TestExplorer

/-! ## The writes of one document in its part of the tree -/

namespace TreeWrite

variable {p q : Path} {writes : List TreeWrite}

theorem owned_writes (plain : ∀ d, insert d ∈ writes → d.path.Plain) :
    (writes.foldl apply {}).Owned := by
  refine List.foldlRecOn (motive := Tree.Owned) writes apply Tree.owned_empty ?_
  intro t owned write listed
  cases write with
  | clear => exact Tree.owned_empty
  | evict path => exact owned.removeDocument path
  | insert d => exact owned.insertInto (plain d listed)

theorem part_writes (plain : ∀ d, insert d ∈ writes → d.path.Plain) (same : q.Same p) :
    (writes.foldl apply {}).part q =
      Tree.discovered ((layers p writes).reverse.filter (·.path = q)) := by
  induction writes using List.reverseRecOn with
  | nil => rfl
  | append_singleton writes last ih =>
    have before : ∀ d, insert d ∈ writes → d.path.Plain := fun d known =>
      plain d (List.mem_append_left _ known)
    have owned := owned_writes before
    rw [layers_append, List.foldl_append, List.foldl_cons, List.foldl_nil, List.foldl_cons,
      List.foldl_nil]
    cases last with
    | clear => rfl
    | evict path =>
      rw [layer, apply]
      split
      next here =>
        refine Tree.part_of_none fun s member home => ?_
        exact (Tree.mem_removeDocument.1 member).2 (home ▸ same.trans here.symm)
      next away =>
        rw [Tree.part_removeDocument fun here => away (here.symm.trans same), ih before]
    | insert d =>
      have last : d.path.Plain := plain d (by simp)
      rw [layer, apply]
      by_cases home : d.path = q
      · subst home
        rw [if_pos same, Document.part_insertInto owned last, ih before, List.reverse_cons,
          List.filter_append]
        simp [Tree.discovered]
      · rw [Document.part_insertInto_of_ne owned last home, ih before]
        split <;> simp [home]

end TreeWrite

theorem Act.engine_tree (act : Act) (e : Engine) :
    (act.engine e).tree = act.write?.toList.foldl TreeWrite.apply e.tree := by
  cases act with
  | state action answer => exact e.perform_tree action
  | _ => rfl

namespace Scene

variable {ι : Type} {tasks : ι → Task} {s : Scene ι} {p : Path}

def Written (s : Scene ι) : Prop :=
  s.engine.tree = ((writes s.log).map (·.2)).foldl TreeWrite.apply {}

namespace Written

variable (written : s.Written) (plain : ∀ i d, (i, .insert d) ∈ writes s.log → d.path.Plain)

include written plain

theorem part {q : Path} (same : q.Same p) : s.engine.tree.part q =
    Tree.discovered ((layersOf p (writes s.log)).reverse.filter (·.path = q)) := by
  rw [written]
  refine TreeWrite.part_writes (fun d member => ?_) same
  obtain ⟨⟨i, write⟩, member, rfl⟩ := List.mem_map.1 member
  exact plain i d member

theorem none (empty : layersOf p (writes s.log) = []) :
    ∀ suite ∈ s.engine.tree.suites, ¬ suite.path.Same p := by
  intro suite member same
  have here : suite ∈ (s.engine.tree.part suite.path).suites := Tree.mem_part.2 ⟨member, rfl⟩
  rw [written.part plain same, empty] at here
  cases here

theorem one {d : Document} (alone : layersOf p (writes s.log) = [d]) (here : d.path.Same p) :
    s.engine.tree.suites.filter (·.path.Same p) = (d.insertInto {}).tree.suites := by
  have home (suite : Suite) (member : suite ∈ s.engine.tree.suites) (same : suite.path.Same p) :
      suite.path = d.path := by
    have inside : suite ∈ (s.engine.tree.part suite.path).suites := Tree.mem_part.2 ⟨member, rfl⟩
    by_contra other
    rw [written.part plain same, alone] at inside
    simp [Ne.symm other, Tree.discovered] at inside
  have part := congrArg Tree.suites (written.part plain here)
  rw [alone] at part
  simp only [List.reverse_singleton, decide_true, List.filter_cons_of_pos, List.filter_nil] at part
  refine (List.filter_congr fun suite member => ?_).trans part
  rw [decide_eq_decide]
  exact ⟨home suite member, fun same => same ▸ here⟩

end Written

theorem mem_writes_of_layers {d : Document} (stands : d ∈ layersOf p (writes s.log)) :
    (∃ i, (i, .insert d) ∈ writes s.log) ∧ d.path.Same p := by
  obtain ⟨entered, here⟩ := TreeWrite.mem_of_layers p stands
  obtain ⟨⟨i, write⟩, member, rfl⟩ := List.mem_map.1 entered
  exact ⟨⟨i, member⟩, here⟩

variable [DecidableEq ι]

theorem Written.play (written : s.Written) (moves : List (Move ι)) : (s.play moves).Written := by
  refine play_induction (P := Written) (fun _ _ written => written) ?take written moves
  intro s i answers act rest written _
  rw [Written, take_engine, act.engine_tree, written, writes_take, List.map_append,
    List.foldl_append]
  cases act.write? <;> rfl

/-- In every schedule and at every moment, a document that no request lists twice is not in the tree,
or it stands by one of the texts that were read or sent for it, or another request has put it in
place between the clearing of a discovery and its insertion. Only then it stands by two texts. -/
theorem versions_of_document (c : Controller) (tasks : ι → Task) (moves : List (Move ι)) :
    let s := (start c tasks {}).play moves
    s.ListsOnce → (∀ path source, s.Told tasks path source → path.Plain) → ∀ p,
      (∀ suite ∈ s.engine.tree.suites, ¬ suite.path.Same p) ∨
      (∃ path source, path.Same p ∧ s.Told tasks path source ∧
        s.engine.tree.suites.filter (·.path.Same p) = (Document.fresh path source).tree.suites) ∨
      ∃ i j read placed, Overtaken tasks p (writes s.log) i j read placed ∧
        (∀ d ∈ [read, placed], ∃ source, d = Document.scan d.path source ∧
          s.Told tasks d.path source) ∧
        ∀ q, q.Same p → s.engine.tree.part q =
          Tree.discovered ([placed, read].filter (·.path = q)) := by
  intro s once plain p
  obtain ⟨staging, accounted⟩ :=
    (staging_start c tasks rfl).accounts_play (accounts_start (p := p) c tasks {}) moves
  have begins : (start c tasks {}).Written := rfl
  have written : s.Written := begins.play moves
  have plain' : ∀ i d, (i, .insert d) ∈ writes s.log → d.path.Plain := by
    intro i d member
    obtain ⟨source, -, told⟩ := staging.texts i d member
    exact plain d.path source told
  rcases (accounted once).settled with none | ⟨d, one⟩ | ⟨i, j, read, placed, overtaken⟩
  · exact .inl (written.none plain' none)
  · obtain ⟨⟨i, member⟩, here⟩ := mem_writes_of_layers (one ▸ List.mem_singleton_self d)
    obtain ⟨source, scanned, told⟩ := staging.texts i d member
    refine .inr (.inl ⟨d.path, source, here, told, ?_⟩)
    rw [written.one plain' one here, Document.fresh, ← scanned]
  · refine .inr (.inr ⟨i, j, read, placed, overtaken, fun d stands => ?_, fun q same => ?_⟩)
    · obtain ⟨⟨k, member⟩, -⟩ := mem_writes_of_layers (overtaken.layers.symm ▸ stands)
      exact staging.texts k d member
    · rw [written.part plain' same, overtaken.layers]
      rfl

end Scene

/-! ## A reload that an edit overtakes -/

namespace Race

open Scene

def document : Path :=
  .ofString "/ws/a.pl"

def saved : String :=
  ":- begin_tests(u).\ntest(a).\n"

def draft : String :=
  ":- begin_tests(u).\ntest(b).\n"

def controller : Controller :=
  { roots := [.ofString "/ws"], settings := {} }

def tasks : Fin 3 → Task
  | 0 => .reload
  | 1 => .edited document draft
  | 2 => .reload

def answers : Answers
  | .enumerate _ => .ok [document]
  | .read _ => .ok saved
  | .launch _ => .finished { exitCode := some 0, text := "" }
  | .notify _ => ()
  | .note _ => ()

def turns (i : Fin 3) (count : Nat) : List (Move (Fin 3)) :=
  List.replicate count (.turn i answers)

-- After a first reload the edit takes the lock of discovery and lets go of it. Then a second reload
-- clears the tree, the edit puts its draft there, and the reload goes on to insert what is saved.
def schedule : List (Move (Fin 3)) :=
  turns 0 14 ++ turns 1 4 ++ turns 2 6 ++ turns 1 5 ++ turns 2 8

def ending : Scene (Fin 3) :=
  (start controller tasks {}).play schedule

def names (suites : List Suite) : List (List String) :=
  suites.map fun s => s.tests.map (·.name)

theorem once : ending.ListsOnce := by
  unfold ListsOnce
  decide +kernel

theorem of_edited {i : Fin 3} {path : Path} {source : String}
    (task : tasks i = .edited path source) : path = document ∧ source = draft := by
  match i with
  | 0 => cases task
  | 1 =>
    cases task
    exact ⟨rfl, rfl⟩
  | 2 => cases task

theorem told {path : Path} {source : String} (told : ending.Told tasks path source) :
    path = document ∧ (source = saved ∨ source = draft) := by
  have readings : readings ending.log = [(document, saved), (document, saved)] := by
    decide +kernel
  rcases told with read | ⟨⟨i, known, task, -⟩, j, old, task'⟩
  · rw [readings] at read
    obtain ⟨rfl, rfl⟩ : path = document ∧ source = saved := by simpa using read
    exact ⟨rfl, .inl rfl⟩
  · exact ⟨(of_edited task').1, .inr (of_edited task).2⟩

theorem plain : document.Plain := by
  decide +kernel

theorem names_fresh {source : String} (given : source = saved ∨ source = draft) :
    names (Document.fresh document source).tree.suites ≠ [["b", "a"]] := by
  rcases given with rfl | rfl <;> decide +kernel

theorem versions_of_document_overtaken :
    ending.ListsOnce ∧ (∀ path source, ending.Told tasks path source → path.Plain) ∧
      ∃ i j read placed, Overtaken tasks document (writes ending.log) i j read placed ∧
        ∀ q, q.Same document → ending.engine.tree.part q =
          Tree.discovered ([placed, read].filter (·.path = q)) := by
  have all : ∀ path source, ending.Told tasks path source → path.Plain := by
    rintro path source given
    exact (told given).1 ▸ plain
  refine ⟨once, all, ?_⟩
  rcases versions_of_document controller tasks schedule once all document with
    none | ⟨path, source, -, given, one⟩ | ⟨i, j, read, placed, overtaken, -, parts⟩
  · have stands : ∃ suite ∈ ending.engine.tree.suites, suite.path.Same document := by
      decide +kernel
    obtain ⟨suite, member, same⟩ := stands
    exact absurd same (none suite member)
  · obtain ⟨rfl, source⟩ := told given
    have mixed : names (ending.engine.tree.suites.filter (·.path.Same document)) = [["b", "a"]] := by
      decide +kernel
    exact absurd ((congrArg names one).symm.trans mixed) (names_fresh source)
  · exact ⟨i, j, read, placed, overtaken, parts⟩

theorem reload_mixes_versions :
    (∀ i, ∃ reply, ending.rest i = .done reply) ∧ ending.ListsOnce ∧
      (∀ path source, ending.Told tasks path source → path.Plain) ∧
      ¬ ∀ p, (∃ suite ∈ ending.engine.tree.suites, suite.path = p) →
        ∃ source, ending.Told tasks p source ∧
          (ending.engine.tree.part p).suites = (Document.fresh p source).tree.suites := by
  have finished : ∀ i, ∃ reply, ending.rest i = .done reply := by decide +kernel
  refine ⟨finished, once, fun path source given => (told given).1 ▸ plain, fun claim => ?_⟩
  have stands : ∃ suite ∈ ending.engine.tree.suites, suite.path = document := by decide +kernel
  have mixed : names (ending.engine.tree.part document).suites = [["b", "a"]] := by
    decide +kernel
  obtain ⟨source, given, one⟩ := claim document stands
  exact names_fresh (told given).2 ((congrArg names one).symm.trans mixed)

end Race

end TestExplorer
