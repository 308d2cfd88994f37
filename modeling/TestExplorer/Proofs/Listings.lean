import TestExplorer.FileSystem.Layout
import TestExplorer.Proofs.Standing
import TestExplorer.Proofs.Tree.Repetition

set_option autoImplicit false

namespace TestExplorer

variable {t : Tree} {p q : Path} {source : String}

theorem Disk.documents_at {d : Disk} (read : d.text p = some source) (paths : List Path) :
    (d.documents paths).filter (·.path = p) =
      List.replicate (paths.count p) (Document.scan p source) := by
  induction paths with
  | nil => rfl
  | cons path rest ih =>
    rw [← List.singleton_append, documents_append, List.filter_append, ih, documents_singleton,
      List.count_append, List.replicate_add]
    congr 1
    by_cases here : path = p
    · subst here
      simp [read, Document.path_scan]
    · cases d.text path <;> simp [Document.path_scan, here]

theorem Disk.path_of_documents {d : Disk} {paths : List Path} {document : Document}
    (member : document ∈ d.documents paths) : document.path ∈ paths := by
  obtain ⟨path, listed, found⟩ := List.mem_filterMap.1 member
  obtain ⟨source, -, rfl⟩ := Option.map_eq_some_iff.1 found
  exact listed

namespace Controller

variable (c : Controller)

def Awaits (buffers : List (Path × String)) (p : Path) : Prop :=
  ∃ b ∈ buffers, c.recognizes b.1 ∧ b.1.Same p

def editedTree (buffers : List (Path × String)) (t : Tree) : Tree :=
  (buffers.flatMap fun (path, source) => c.editWrites path source).foldl TreeWrite.apply t

theorem tree_editWrites (recognized : c.recognizes q) (source : String) (t : Tree) :
    (c.editWrites q source).foldl TreeWrite.apply t = ((Document.scan q source).replaceIn t).tree := by
  simp [editWrites, recognized, TreeWrite.apply, Document.replaceIn, Document.path_scan]

theorem editedTree_cons (buffer : Path × String) (rest : List (Path × String)) (t : Tree) :
    c.editedTree (buffer :: rest) t =
      c.editedTree rest ((c.editWrites buffer.1 buffer.2).foldl TreeWrite.apply t) := by
  simp [editedTree]

theorem editedTree_append (a b : List (Path × String)) (t : Tree) :
    c.editedTree (a ++ b) t = c.editedTree b (c.editedTree a t) := by
  simp [editedTree]

theorem tree_discoveryWrites (d : Disk) (buffers : List (Path × String)) (t : Tree) :
    (c.discoveryWrites d buffers).foldl TreeWrite.apply t =
      c.editedTree buffers (Tree.discovered (d.documents (d.files c.roots))) := by
  rw [discoveryWrites, List.foldl_cons, List.foldl_append, List.foldl_map]
  rfl

variable {c}

theorem owned_editWrites (owned : t.Owned) (plain : q.Plain) (source : String) :
    ((c.editWrites q source).foldl TreeWrite.apply t).Owned := by
  by_cases recognized : c.recognizes q
  · rw [c.tree_editWrites recognized]
    exact (owned.removeDocument q).insertInto (d := Document.scan q source) plain
  · rwa [editWrites, if_neg recognized]

theorem part_editWrites (owned : t.Owned) (plain : q.Plain) (source : String)
    (other : c.recognizes q → ¬ q.Same p) :
    ((c.editWrites q source).foldl TreeWrite.apply t).part p = t.part p := by
  by_cases recognized : c.recognizes q
  · have apart : ¬ q.Same p := other recognized
    have different : q ≠ p := fun same => apart (same ▸ rfl)
    rw [c.tree_editWrites recognized, Document.replaceIn,
      Document.part_insertInto_of_ne (owned.removeDocument _) plain different]
    exact Tree.part_removeDocument fun same => apart same.symm
  · rw [editWrites, if_neg recognized, List.foldl_nil]

theorem owned_editedTree {buffers : List (Path × String)} (plain : ∀ b ∈ buffers, b.1.Plain)
    (owned : t.Owned) : (c.editedTree buffers t).Owned := by
  induction buffers generalizing t with
  | nil => exact owned
  | cons buffer rest ih =>
    rw [editedTree_cons]
    exact ih (fun b member => plain b (List.mem_cons_of_mem _ member))
      (owned_editWrites owned (plain buffer List.mem_cons_self) buffer.2)

theorem part_editedTree {buffers : List (Path × String)} (plain : ∀ b ∈ buffers, b.1.Plain)
    (owned : t.Owned) (alone : ¬ c.Awaits buffers p) :
    (c.editedTree buffers t).part p = t.part p := by
  induction buffers generalizing t with
  | nil => rfl
  | cons buffer rest ih =>
    have here := plain buffer List.mem_cons_self
    have other : c.recognizes buffer.1 → ¬ buffer.1.Same p :=
      fun recognized same => alone ⟨buffer, List.mem_cons_self, recognized, same⟩
    have later : ¬ c.Awaits rest p :=
      fun ⟨b, member, rest⟩ => alone ⟨b, List.mem_cons_of_mem _ member, rest⟩
    rw [editedTree_cons, ih (fun b member => plain b (List.mem_cons_of_mem _ member))
      (owned_editWrites owned here buffer.2) later, part_editWrites owned here buffer.2 other]

theorem part_of_buffer {buffers : List (Path × String)} (plain : ∀ b ∈ buffers, b.1.Plain)
    (distinct : Engine.Distinct buffers) (owned : t.Owned) {b : Path × String}
    (waiting : b ∈ buffers) (recognized : c.recognizes b.1) (same : b.1.Same p) :
    (c.editedTree buffers t).part p =
      if b.1 = p then (Document.scan b.1 b.2).copies 1 else {} := by
  obtain ⟨before, after, rfl⟩ := List.append_of_mem waiting
  obtain ⟨path, source⟩ := b
  obtain ⟨-, last, -⟩ := List.pairwise_append.1 distinct
  obtain ⟨apart, -⟩ := List.pairwise_cons.1 last
  have plainBefore (b : Path × String) (member : b ∈ before) : b.1.Plain :=
    plain b (List.mem_append_left _ member)
  have plainAfter (b : Path × String) (member : b ∈ after) : b.1.Plain :=
    plain b (List.mem_append_right _ (List.mem_cons_of_mem _ member))
  have plainPath : path.Plain := plain (path, source) waiting
  have owned' := owned_editedTree (c := c) plainBefore owned
  have alone : ¬ c.Awaits after p :=
    fun ⟨b, member, _, same'⟩ => apart b member (same.trans same'.symm)
  have gone : ((c.editedTree before t).removeDocument path).part p = {} :=
    Tree.part_of_none fun s member here =>
      (Tree.mem_removeDocument.1 member).2 (here ▸ same.symm)
  rw [editedTree_append, editedTree_cons, part_editedTree plainAfter
    (owned_editWrites owned' plainPath source) alone, c.tree_editWrites recognized,
    Document.replaceIn, Document.path_scan]
  split
  next here =>
    subst here
    have entered := Document.part_insertInto (owned'.removeDocument path)
      (d := Document.scan path source) plainPath
    rw [Document.path_scan, gone] at entered
    rw [entered, Document.copies_one]
  next away =>
    rw [Document.part_insertInto_of_ne (owned'.removeDocument path) (d := Document.scan path source)
      plainPath away, gone]

end Controller

section

variable {σ : Type} {h : Activity.Host σ} {disk : σ → Disk}

/-- After a reload a document stands in the tree as many times over as the roots list it, and once
where a buffer was waiting for it. Nothing else stands there. -/
theorem Activity.Host.Serves.reload_repeats_listings (serves : h.Serves disk) (c : Controller)
    (e : Engine) (w : σ) (live : e.disposed = false)
    (plain : ∀ p ∈ (disk w).files c.roots, p.Plain) (plainBuffers : ∀ b ∈ e.buffers, b.1.Plain)
    (distinct : Engine.Distinct e.buffers) :
    let files := (disk w).files c.roots
    let t := (c.reload.exec h (e, w)).2.1.tree
    (∀ p source, p ∈ files → (disk w).text p = some source → ¬ c.Awaits e.buffers p →
      t.Repeats (Document.scan p source) (files.count p)) ∧
      (∀ b ∈ e.buffers, c.recognizes b.1 → t.Repeats (Document.scan b.1 b.2) 1) ∧
      ∀ s ∈ t.suites, (s.path ∈ files ∧ ¬ c.Awaits e.buffers s.path) ∨
        ∃ b ∈ e.buffers, c.recognizes b.1 ∧ b.1 = s.path := by
  intro files t
  let listed := Tree.discovered ((disk w).documents files)
  have plainDocuments : ∀ d ∈ (disk w).documents files, d.path.Plain :=
    fun d member => plain d.path (Disk.path_of_documents member)
  have ownedListed : listed.Owned := Tree.owned_discovered plainDocuments
  have tree : t = c.editedTree e.buffers listed := by
    obtain ⟨writes, -, -⟩ := serves.reload_outcome c e w live
    have keeps (action : HostAction) (s : Engine × σ) : (h action s).2.1.tree = s.1.tree :=
      congrArg Prod.fst (serves.keeps action s)
    rw [← c.tree_discoveryWrites, ← writes, ← Activity.exec_tree keeps]
  have owned : t.Owned := tree ▸ Controller.owned_editedTree plainBuffers ownedListed
  refine ⟨?saved, ?waiting, ?whole⟩
  case saved =>
    intro p source member read alone
    refine owned.repeats (plain p member) (Document.nodup_marks_scan p source) ?_
    rw [tree, Document.path_scan, Controller.part_editedTree plainBuffers ownedListed alone,
      Tree.part_discovered plainDocuments, Disk.documents_at read]
    rfl
  case waiting =>
    intro b member recognized
    refine owned.repeats (plainBuffers b member) (Document.nodup_marks_scan b.1 b.2) ?_
    rw [tree, Document.path_scan, Controller.part_of_buffer plainBuffers distinct ownedListed member
      recognized rfl, if_pos rfl]
  case whole =>
    intro s member
    have inside : s ∈ (t.part s.path).suites := Tree.mem_part.2 ⟨member, rfl⟩
    rw [tree] at inside
    by_cases awaited : c.Awaits e.buffers s.path
    · obtain ⟨b, waiting, recognized, same⟩ := awaited
      rw [Controller.part_of_buffer plainBuffers distinct ownedListed waiting recognized same]
        at inside
      split at inside
      next here => exact .inr ⟨b, waiting, recognized, here⟩
      next => contradiction
    · rw [Controller.part_editedTree plainBuffers ownedListed awaited] at inside
      obtain ⟨document, known, path, -⟩ :=
        (Tree.stems_discovered _).suites s (Tree.mem_part.1 inside).1
      exact .inl ⟨path ▸ Disk.path_of_documents known, awaited⟩

theorem reload_repeats_listings_nested_roots :
    let path := Path.ofString "/ws/sub/a.pl"
    let saved := ":- begin_tests(u).\ntest(x).\n:- end_tests(u).\n"
    let c : Controller := { roots := [.ofString "/ws", .ofString "/ws/sub"], settings := {} }
    let site := FileSystem.layout (.ofString "/ws")
      [(.ofString "sub/a.pl", .file (.bytes (Text.toBytes saved)))]
    let world : Rehearsal := { site, controller := c }
    let t := (c.reload.exec Rehearsal.quietHost ({}, world)).2.1.tree
    Rehearsal.quietHost.Serves Rehearsal.disk ∧ world.disk.files c.roots = [path, path] ∧
      path.Plain ∧ world.disk.text path = some saved ∧
      t.Repeats (Document.scan path saved) 2 := by
  intro path saved c site world t
  have files : world.disk.files c.roots = [path, path] := by decide +kernel
  have plain : path.Plain := by decide
  have read : world.disk.text path = some saved := by decide +kernel
  have outcome := Rehearsal.quietHost_serves.reload_repeats_listings c {} world rfl
    (by simpa [files] using plain) (by simp) .nil
  have repeats := outcome.1 path saved (by simp [files]) read (by simp [Controller.Awaits])
  rw [files, show [path, path].count path = 2 by decide] at repeats
  exact ⟨Rehearsal.quietHost_serves, files, plain, read, repeats⟩

/-- A root inside another one: the only test of the only file stands in the tree twice, the second
time with an ordinal that the file does not call for. -/
theorem nested_root_doubles_test :
    let path := Path.ofString "/ws/sub/a.pl"
    let saved := ":- begin_tests(u).\ntest(x).\n:- end_tests(u).\n"
    let c : Controller := { roots := [.ofString "/ws", .ofString "/ws/sub"], settings := {} }
    let site := FileSystem.layout (.ofString "/ws")
      [(.ofString "sub/a.pl", .file (.bytes (Text.toBytes saved)))]
    let world : Rehearsal := { site, controller := c }
    let t := (c.reload.exec Rehearsal.quietHost ({}, world)).2.1.tree
    (Document.scan path saved).marks = [⟨"x", 1⟩] ∧
      t.tests.map (·.id.text) = ["test:/ws/sub/a.pl:x", "test:/ws/sub/a.pl:x#2"] ∧
      t ≠ (Document.fresh path saved).tree := by
  decide +kernel

end

end TestExplorer
