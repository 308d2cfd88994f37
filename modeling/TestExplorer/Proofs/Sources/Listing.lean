import Mathlib.Data.List.Induction
import TestExplorer.Proofs.Sources.Walk

set_option autoImplicit false

namespace TestExplorer

namespace DiscoverySettings

variable {s : DiscoverySettings} {root : Path} {names : List Name} {node : Inode}

theorem enters_iff {entry : WalkEntry} (stands : entry.At root names node) :
    s.enters entry ↔ (node.isDir → ∀ name ∈ names.getLast?, ¬ s.Excluded name) := by
  have dir : (entry.fileType == some .dir) = node.isDir := by
    rw [stands.fileType]
    cases node <;> rfl
  cases names using List.reverseRecOn with
  | nil =>
    have top : entry.depth = 0 := stands.depth
    simp [enters, top]
  | append_singleton front name =>
    have deep : 0 < entry.depth := by simp [stands.depth]
    have named : entry.name = name := stands.name name (by simp)
    have excluded : (Text.ofBytes? name).any s.excludes ↔ s.Excluded name := by
      rw [excluded_iff, Option.any_eq_true]
    simp only [enters, dir, deep, named, decide_true, Bool.and_true, Bool.not_eq_true',
      ← Bool.not_eq_true, Bool.and_eq_true, excluded, not_and, List.getLast?_concat,
      Option.mem_def, Option.some.injEq, forall_eq']

theorem passes_iff {tree : Inode} : Walker.Passes s.enters root tree names ↔
    ∀ node, tree.get? names = some node → node.isDir →
      ∀ name ∈ names.getLast?, ¬ s.Excluded name := by
  constructor
  case mp =>
    intro passes node found
    have stands := WalkEntry.at_ofPlace root names node
    exact (enters_iff stands).1 (passes node _ found stands)
  case mpr =>
    intro free node entry found stands
    exact (enters_iff stands).2 (free node found)

/-! ## What is gathered -/

def source? (s : DiscoverySettings) : Except WalkError WalkEntry → Option Path
  | .ok entry => if s.isSource entry then some entry.path else none
  | .error _ => none

end DiscoverySettings

def Walker.skipped? : Except WalkError WalkEntry → Option Notice
  | .ok _ => none
  | .error error => some (.skippedEntry error.text)

/-- Such an item ends the listing of its root. -/
def Walker.Ends : Except WalkError WalkEntry → Prop
  | .ok _ => False
  | .error error => error.depth.getD 0 = 0

namespace DiscoverySettings

variable {s : DiscoverySettings} {root : Path} {found : List Path}
  {items rest : List (Except WalkError WalkEntry)}

theorem gather_append (goes : ∀ item ∈ items, ¬ Walker.Ends item) :
    s.gather root found (items ++ rest) =
      ((s.gather root (found ++ items.filterMap s.source?) rest).1,
        items.filterMap Walker.skipped? ++
          (s.gather root (found ++ items.filterMap s.source?) rest).2) := by
  induction items generalizing found with
  | nil => simp
  | cons item items ih =>
    rw [List.forall_mem_cons] at goes
    have later (found : List Path) : s.gather root found (items ++ rest) = _ := ih goes.2
    cases item with
    | ok entry =>
      by_cases source : s.isSource entry <;>
        simp [gather, later, List.filterMap_cons, source?, Walker.skipped?, source]
    | error error =>
      have deeper : ¬ error.depth.getD 0 = 0 := goes.1
      simp [gather, later, List.filterMap_cons, source?, Walker.skipped?, deeper]

theorem gather_eq_ok (goes : ∀ item ∈ items, ¬ Walker.Ends item) : s.gather root [] items =
    (.ok (Path.sort (items.filterMap s.source?)), items.filterMap Walker.skipped?) := by
  have whole : s.gather root [] (items ++ []) = _ := gather_append goes
  simpa [gather] using whole

theorem gather_eq_error {error : WalkError} (goes : ∀ item ∈ items, ¬ Walker.Ends item)
    (ends : error.depth.getD 0 = 0) : s.gather root [] (items ++ .error error :: rest) =
      (.error (.enumeration root error.text), items.filterMap Walker.skipped?) := by
  simp [gather_append goes, gather, ends]

end DiscoverySettings

/-! ## What is listed -/

theorem Path.mem_dropLast_iff {names : List Name} {name : Name} :
    name ∈ names.dropLast ↔ ∃ front, front ++ [name] <+: names ∧ front ++ [name] ≠ names := by
  constructor
  case mp =>
    intro member
    obtain ⟨front, rest, parts⟩ := List.append_of_mem member
    have start : front ++ [name] <+: names.dropLast := ⟨rest, by simp [parts]⟩
    refine ⟨front, start.trans (List.dropLast_prefix names), fun same => ?_⟩
    have short := start.length_le
    rw [same, List.length_dropLast] at short
    have filled : 0 < names.length := by simp [← same]
    omega
  case mpr =>
    rintro ⟨front, ⟨rest, rfl⟩, other⟩
    have filled : rest ≠ [] := fun empty => other (by simp [empty])
    rw [List.dropLast_append_of_ne_nil filled]
    simp

/-- A shown file with a configured extension, with no hidden or excluded directory above it. -/
structure Source (settings : DiscoverySettings) (tree : Inode) (names : List Name) : Prop where
  isFile : ∃ content, tree.get? names = some (.file content)
  visible : ∀ name ∈ names, ¬ isHidden name
  entered : ∀ name ∈ names.dropLast, ¬ settings.Excluded name
  known : ∃ name ∈ names.getLast?, settings.HasExtension name

section

variable {settings : DiscoverySettings} {root : Path} {entries : List (Name × Inode)}
  {names : List Name} {content : Content}

theorem recognizes_below_iff (proper : (Inode.dir entries).Proper)
    (found : (Inode.dir entries).get? names = some (.file content)) :
    settings.recognizes (root.below names) ↔ ∃ name ∈ names.getLast?, settings.HasExtension name := by
  cases names using List.reverseRecOn with
  | nil => exact absurd (Option.some.inj found) (by simp)
  | append_singleton front name =>
    have named : Path.IsName name := Inode.Proper.isName proper found name (by simp)
    simp [← Path.child_below, settings.recognizes_child_iff _ named]

theorem passes_above (found : (Inode.dir entries).get? names = some (.file content)) :
    (∀ above, above <+: names → above ≠ names →
      Walker.Passes settings.enters root (.dir entries) above) ↔
      ∀ name ∈ names.dropLast, ¬ settings.Excluded name := by
  simp only [DiscoverySettings.passes_iff, Path.mem_dropLast_iff]
  constructor
  case mp =>
    rintro free name ⟨front, ⟨rest, rfl⟩, other⟩
    have deeper : rest ≠ [] := fun empty => other (by simp [empty])
    obtain ⟨node, here, later⟩ := Inode.get?_append_eq_some_iff.1 found
    exact free _ ⟨rest, rfl⟩ other node here (Inode.isDir_of_get? deeper later) name (by simp)
  case mpr =>
    intro free above before other node _ _ name last
    obtain ⟨front, rfl⟩ := List.getLast?_eq_some_iff.1 last
    exact free name ⟨front, before, other⟩

end

section

variable [Walker] {site : Site} {settings : DiscoverySettings} {root : Path}
  {entries : List (Name × Inode)}
  (walks : Walker.Walks site root (.dir entries) settings.enters)

include walks

theorem walked_source (proper : (Inode.dir entries).Proper)
    {item : Except WalkError WalkEntry} {path : Path}
    (walked : item ∈ Walker.walk site root settings.enters)
    (source : settings.source? item = some path) : ∃ names content,
      (Inode.dir entries).get? names = some (.file content) ∧ path = root.below names ∧
      item = .ok (.ofPlace root names (.file content)) ∧ Source settings (.dir entries) names := by
  obtain ⟨names, node, entry, rfl, found, stands, visible, free⟩ := walks.sound item walked
  obtain ⟨isSource, same⟩ := Option.ite_none_right_eq_some.1 source
  obtain rfl := Option.some.inj same
  simp only [DiscoverySettings.isSource, stands.fileType, stands.path, Bool.and_eq_true,
    beq_iff_eq, Option.some.injEq] at isSource
  obtain ⟨kind, recognized⟩ := isSource
  cases node with
  | dir _ => contradiction
  | link _ => contradiction
  | file content =>
    have below : names ≠ [] := by
      rintro rfl
      exact absurd (Option.some.inj found) (by simp)
    exact ⟨names, content, found, stands.path, congrArg _ (stands.eq_ofPlace below), ⟨content, found⟩,
      visible, (passes_above found).1 free, (recognizes_below_iff proper found).1 recognized⟩

theorem listSources_of_dir (proper : (Inode.dir entries).Proper)
    (stands : site.fs.stat site.here root = .ok (.dir entries)) :
    ∃ listed, listSources site settings root = (.ok listed, []) ∧
      listed.Pairwise (·.key < ·.key) ∧
      ∀ path, path ∈ listed ↔
        ∃ names, Source settings (.dir entries) names ∧ path = root.below names := by
  have isFile : site.fs.isFile site.here root = false := by rw [FileSystem.isFile, stands]; rfl
  have isDir : site.fs.isDir site.here root = true := by rw [FileSystem.isDir, stands]; rfl
  let items := Walker.walk site root settings.enters
  have goes : ∀ item ∈ items, ¬ Walker.Ends item := by
    intro item walked
    obtain ⟨_, _, entry, rfl, -⟩ := walks.sound item walked
    exact id
  have silent : items.filterMap Walker.skipped? = [] := by
    refine List.filterMap_eq_nil_iff.2 fun item walked => ?_
    obtain ⟨_, _, entry, rfl, -⟩ := walks.sound item walked
    rfl
  refine ⟨Path.sort (items.filterMap settings.source?), ?_, Path.sort_strict ?_, fun path => ?_⟩
  · simp [listSources, isFile, isDir, DiscoverySettings.gather_eq_ok goes, silent, items]
  · refine List.pairwise_filterMap.2 (walks.once.imp_of_mem ?_)
    intro item item' walked walked' other path source path' source' same
    obtain ⟨names, content, found, rfl, rfl, -⟩ := walked_source walks proper walked source
    obtain ⟨names', content', found', rfl, rfl, -⟩ := walked_source walks proper walked' source'
    obtain rfl := Path.key_below_inj root (Inode.Proper.isName proper found)
      (Inode.Proper.isName proper found') same
    obtain rfl : content = content' := by simpa [found] using found'
    exact other rfl
  · rw [Path.mem_sort, List.mem_filterMap]
    constructor
    case mp =>
      rintro ⟨item, walked, source⟩
      obtain ⟨names, content, -, rfl, -, listed⟩ := walked_source walks proper walked source
      exact ⟨names, listed, rfl⟩
    case mpr =>
      rintro ⟨names, ⟨⟨content, found⟩, visible, entered, known⟩, rfl⟩
      have below : names ≠ [] := by
        rintro rfl
        exact absurd (Option.some.inj found) (by simp)
      refine ⟨_, walks.complete names _ below found visible fun above before => ?_, ?_⟩
      · by_cases whole : above = names
        · subst whole
          refine DiscoverySettings.passes_iff.2 fun node here isDir => ?_
          obtain rfl : .file content = node := by simpa [found] using here
          contradiction
        · exact (passes_above found).2 entered above before whole
      · have recognized : settings.recognizes (root.below names) :=
          (recognizes_below_iff proper found).2 known
        simp [DiscoverySettings.source?, DiscoverySettings.isSource, WalkEntry.ofPlace,
          Inode.fileType, recognized]

end

/-- The listing of a directory has just its sources, each once and in the order of paths. A file is
listed when it is recognized, and nothing else can be listed. -/
theorem listSources_of_tree [Walker] (site : Site) (settings : DiscoverySettings) (root : Path)
    (proper : site.fs.root.Proper)
    (walks : ∀ entries, site.fs.stat site.here root = .ok (.dir entries) →
      ∀ filter, Walker.Passes filter root (.dir entries) [] →
        Walker.Walks site root (.dir entries) filter) :
    (∀ entries, site.fs.stat site.here root = .ok (.dir entries) →
      ∃ listed, listSources site settings root = (.ok listed, []) ∧
        listed.Pairwise (·.key < ·.key) ∧
        ∀ path, path ∈ listed ↔
          ∃ names, Source settings (.dir entries) names ∧ path = root.below names) ∧
    (site.fs.isFile site.here root →
      listSources site settings root =
        (.ok (if settings.recognizes root then [root] else []), [])) ∧
    (¬ site.fs.isFile site.here root → ¬ site.fs.isDir site.here root →
      listSources site settings root = (.error (.enumeration root "not a directory"), [])) := by
  refine ⟨fun entries stands => ?_, fun isFile => ?_, fun noFile noDir => ?_⟩
  · obtain ⟨place, -, found⟩ := FileSystem.stat_eq_ok_iff.1 stands
    have top : Walker.Passes settings.enters root (.dir entries) [] :=
      DiscoverySettings.passes_iff.2 (by simp)
    exact listSources_of_dir (walks entries stands _ top) (proper.get? found) stands
  · rw [listSources, if_pos isFile]
  · rw [listSources, if_neg noFile, if_pos (by simpa using noDir)]

-- The root and the file have names of excluded directories. The other files are hidden, have no
-- configured extension or are behind a directory that is hidden or excluded.
theorem listSources_of_vendor_tree :
    let settings : DiscoverySettings := { excludeDirs := ["vendor", "pack", "pack.pl"] }
    let dir (entries : List (String × Inode)) : Inode :=
      .dir (entries.map fun (name, node) => (Text.toBytes name, node))
    let file : Inode := .file (.zeros 0)
    let tree := dir [("pack.pl", file), (".b.pl", file), ("notes.txt", file),
      ("pack", dir [("c.pl", file)]), (".lib", dir [("d.pl", file)]),
      ("lib", dir [("vendor", dir [("e.pl", file)])])]
    let site : Site := { fs := { root := dir [("vendor", tree)] }, here := [] }
    let root := Path.ofString "/vendor"
    let source := root.below [Text.toBytes "pack.pl"]
    site.fs.root.Proper ∧ site.fs.stat site.here root = .ok tree ∧
      (∀ filter, Walker.Passes filter root tree [] → Walker.Walks site root tree filter) ∧
      listSources site settings root = (.ok [source], []) ∧
      ∀ path, path = source ↔ ∃ names, Source settings tree names ∧ path = root.below names := by
  intro settings dir file tree site root source
  have proper : site.fs.root.Proper := by decide +kernel
  have plain : site.fs.root.Everywhere Ignore.PlainEntries := by decide +kernel
  have stands : site.fs.stat site.here root = .ok tree := rfl
  have walks (entries : List (Name × Inode))
      (here : site.fs.stat site.here root = .ok (.dir entries)) (filter : WalkEntry → Bool)
      (passes : Walker.Passes filter root (.dir entries) []) :
      Walker.Walks site root (.dir entries) filter :=
    Ignore.walk_walks proper (fun _ dir _ _ => Ignore.unruled_of_plain plain dir) here passes
  have found : listSources site settings root = (.ok [source], []) := by decide +kernel
  obtain ⟨listed, answer, -, members⟩ :=
    (listSources_of_tree site settings root proper walks).1 _ stands
  obtain rfl : [source] = listed := Except.ok.inj (congrArg Prod.fst (found.symm.trans answer))
  refine ⟨proper, stands, walks _ stands, found, fun path => ?_⟩
  rw [← List.mem_singleton]
  exact members path

end TestExplorer
