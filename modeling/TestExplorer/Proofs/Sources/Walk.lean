import TestExplorer.Ignore.Listing
import TestExplorer.Proofs.Sources.Places

set_option autoImplicit false

namespace TestExplorer.Ignore

open TestExplorer.Inode TestExplorer.Path

/-! ## Directories without rules -/

def ruleFiles : List Name :=
  [plainFile, gitFile, excludeFile]

def Unruled (fs : FileSystem) (dir : List Name) : Prop :=
  ∀ file ∈ ruleFiles, ∀ bytes, fs.read dir ⟨file⟩ ≠ .ok bytes

-- The entries with which the paths of those files begin.
def ruleEntries : List Name :=
  [plainFile, gitFile, Text.toBytes ".git"]

theorem ruleFiles_open : ∀ file ∈ ruleFiles, ∃ first ∈ ruleEntries,
    (Path.segments file).head? = some first ∧ Path.IsName first := by
  decide +kernel

def PlainEntries (entries : List (Name × Inode)) : Prop :=
  ∀ name ∈ ruleEntries, name ∉ entries.map (·.1)

instance : DecidablePred PlainEntries := fun entries =>
  inferInstanceAs (Decidable (∀ name ∈ ruleEntries, name ∉ entries.map (·.1)))

theorem follow_absent {fs : FileSystem} {again : List Name → List Name → Except IoError (List Name)}
    {dir : List Name} {first : Name} (rest : List Name) (named : Path.IsName first)
    (absent : ∀ entries, fs.root.get? dir = some (.dir entries) → first ∉ entries.map (·.1))
    (place : List Name) : fs.follow true again dir (first :: rest) ≠ .ok place := by
  have other : first ≠ [] ∧ first ≠ [dot] ∧ first ≠ [dot, dot] := by simpa using named.2
  rw [FileSystem.follow]
  split
  next entries found =>
    have missing : Inode.find? first entries = none := by
      cases entry : Inode.find? first entries with
      | none => rfl
      | some node =>
        have member := List.mem_map_of_mem (f := (·.1)) (Inode.mem_of_find? entry)
        exact absurd member (absent entries found)
    rw [if_neg (by simp [Path.isIdle, other]), if_neg other.2.2, missing]
    split <;> simp
  next => simp
  next => simp

theorem read_absent {fs : FileSystem} {dir : List Name} {file first : Name}
    (opened : (Path.segments file).head? = some first) (named : Path.IsName first)
    (absent : ∀ entries, fs.root.get? dir = some (.dir entries) → first ∉ entries.map (·.1))
    (bytes : List UInt8) : fs.read dir ⟨file⟩ ≠ .ok bytes := by
  obtain ⟨rest, parts⟩ := List.head?_eq_some_iff.1 opened
  have filled : first ≠ [] := fun empty => named.2 (by simp [empty])
  have start : FileSystem.start dir ⟨file⟩ = (dir, first :: rest) := by
    simp [FileSystem.start, parts, filled]
  have nowhere (place : List Name) : fs.resolve dir ⟨file⟩ ≠ .ok place := by
    unfold FileSystem.resolve
    split
    next => simp
    next =>
      split
      next => simp
      next =>
        rw [start]
        exact follow_absent rest named absent place
  intro read
  cases resolved : fs.resolve dir ⟨file⟩ with
  | ok place => exact nowhere place resolved
  | error cause =>
    rw [FileSystem.read, FileSystem.stat, resolved] at read
    contradiction

theorem unruled_of_plain {fs : FileSystem} (plain : fs.root.Everywhere PlainEntries)
    (dir : List Name) : Unruled fs dir := by
  intro file ruled
  obtain ⟨first, listed, opened, named⟩ := ruleFiles_open file ruled
  refine read_absent opened named fun entries found => ?_
  exact (Inode.everywhere_dir_iff.1 (plain.get? found)).1 first listed

variable {fs : FileSystem} {place : List Name}

/-! ## Levels without rules -/

structure Level.Silent (l : Level) : Prop where
  plain : l.plain = []
  git : l.git = []
  exclude : l.exclude = []

theorem readFile_absent {file : Name} (absent : ∀ bytes, fs.read place ⟨file⟩ ≠ .ok bytes) :
    (readFile fs place file).1 = [] ∧
      ∀ dir, complaints dir file (readFile fs place file).2 = [] := by
  unfold readFile
  split
  next bytes read => exact absurd read (absent bytes)
  next => exact ⟨rfl, fun _ => rfl⟩
  next => exact ⟨rfl, fun _ => rfl⟩

theorem Unruled.level (unruled : Unruled fs place) (dir : Path) :
    (Level.of fs place dir).1.Silent ∧ (Level.of fs place dir).2 = [] := by
  have plain := readFile_absent (unruled plainFile (by simp [ruleFiles]))
  have git := readFile_absent (unruled gitFile (by simp [ruleFiles]))
  have exclude := readFile_absent (unruled excludeFile (by simp [ruleFiles]))
  refine ⟨⟨plain.1, git.1, exclude.1⟩, ?_⟩
  simp only [Level.of, plain.2, git.2, exclude.2, List.append_nil]

def UnruledBelow (fs : FileSystem) (place : List Name) : Prop :=
  ∀ dir, place <+: dir → Unruled fs dir

theorem UnruledBelow.child (unruled : UnruledBelow fs place) (name : Name) :
    UnruledBelow fs (place ++ [name]) :=
  fun dir later => unruled dir ((List.prefix_append place [name]).trans later)

theorem UnruledBelow.silent (unruled : UnruledBelow fs place) (path : Path) {levels : List Level}
    (silent : ∀ l ∈ levels, l.Silent) : ∀ l ∈ (Level.of fs place path).1 :: levels, l.Silent :=
  List.forall_mem_cons.2 ⟨((unruled place List.prefix_rfl).level path).1, silent⟩

theorem levelsAbove_silent {names done : List Name} {found : List Level × List String}
    (unruled : ∀ dir, dir <+: done ++ names → Unruled fs dir)
    (silent : ∀ l ∈ found.1, l.Silent) (quiet : found.2 = []) :
    (∀ l ∈ (levelsAbove fs done names found).1, l.Silent) ∧
      (levelsAbove fs done names found).2 = [] := by
  induction names generalizing done found with
  | nil => exact ⟨silent, quiet⟩
  | cons name rest ih =>
    obtain ⟨levels, errors⟩ := found
    have own := (unruled done (List.prefix_append _ _)).level (FileSystem.pathOf done)
    rw [levelsAbove]
    apply ih
    · rwa [List.append_assoc]
    · exact List.forall_mem_cons.2 ⟨own.1, silent⟩
    · exact List.append_eq_nil_iff.2 ⟨quiet, own.2⟩

theorem firstOf_silent {levels : List Level} (silent : ∀ l ∈ levels, l.Silent)
    {rules : Level → List Rule} (mute : ∀ l : Level, l.Silent → rules l = []) (path : List UInt8)
    (isDir : Bool) : firstOf levels rules path isDir = .undecided := by
  induction levels with
  | nil => rfl
  | cons l levels ih =>
    rw [List.forall_mem_cons] at silent
    have later := ih silent.2
    rw [firstOf, List.foldr_cons, ← firstOf, later, mute l silent.1]
    rfl

namespace Walk

variable {w : Walk} {levels : List Level}

theorem decide_silent (above : ∀ l ∈ w.above, l.Silent) (silent : ∀ l ∈ levels, l.Silent)
    (path : Path) (isDir : Bool) : w.decide levels path isDir = .undecided := by
  have inner {rules : Level → List Rule} (mute : ∀ l : Level, l.Silent → rules l = []) :=
    firstOf_silent silent mute
  have outer {rules : Level → List Rule} (mute : ∀ l : Level, l.Silent → rules l = []) :=
    firstOf_silent above mute
  simp only [Walk.decide, inner fun _ => Level.Silent.plain, outer fun _ => Level.Silent.plain,
    inner fun _ => Level.Silent.git, outer fun _ => Level.Silent.git,
    inner fun _ => Level.Silent.exclude, outer fun _ => Level.Silent.exclude, Verdict.orElse]

theorem admits_iff (above : ∀ l ∈ w.above, l.Silent) (silent : ∀ l ∈ levels, l.Silent)
    (entry : WalkEntry) :
    w.admits levels entry ↔ ¬ isHidden entry.name ∧ w.filter entry := by
  simp [admits, decide_silent above silent]

theorem entriesOf_eq_flatMap (path : Path) (depth : Nat) (entries : List (Name × Inode)) :
    w.entriesOf levels place path depth entries = entries.flatMap fun entry =>
      if w.admits levels (childEntry path depth entry.1 entry.2) then
        childEntry path depth entry.1 entry.2 ::
          w.entriesIn levels (place ++ [entry.1]) (path.child entry.1) (depth + 1) entry.2
      else [] := by
  induction entries with
  | nil => rfl
  | cons entry rest ih => rw [entriesOf, ih, List.flatMap_cons]

theorem childEntry_below (root : Path) (above : List Name) (name : Name) (node : Inode) :
    childEntry (root.below above) above.length name node = .ofPlace root (above ++ [name]) node := by
  simp [childEntry, WalkEntry.ofPlace, child_below]

/-! ## What is walked -/

section

variable {filter : WalkEntry → Bool} {root : Path} {above names : List Name} {node : Inode}

/-- Every entry below `above` on the way, the last one too, is shown and let through. -/
structure Admitted (filter : WalkEntry → Bool) (root : Path) (above : List Name) (node : Inode)
    (names : List Name) : Prop where
  shown : ∀ name ∈ names, ¬ isHidden name
  passed : ∀ front, front ≠ [] → front <+: names → ∀ mid, node.get? front = some mid →
    filter (.ofPlace root (above ++ front) mid)

theorem Admitted.nil : Admitted filter root above node [] where
  shown := by simp
  passed _ filled before := absurd (List.prefix_nil.1 before) filled

theorem admitted_cons_iff {entries : List (Name × Inode)} {name : Name} {inner : Inode}
    (entry : find? name entries = some inner) :
    Admitted filter root above (.dir entries) (name :: names) ↔
      (¬ isHidden name ∧ filter (.ofPlace root (above ++ [name]) inner)) ∧
        Admitted filter root (above ++ [name]) inner names := by
  have step (rest : List Name) : (Inode.dir entries).get? (name :: rest) = inner.get? rest := by
    rw [Inode.get?, entry]
  constructor
  case mp =>
    rintro ⟨shown, passed⟩
    rw [List.forall_mem_cons] at shown
    have first := passed [name] (by simp) ⟨names, rfl⟩ inner (by rw [step]; rfl)
    refine ⟨⟨shown.1, first⟩, shown.2, fun front _ before mid found => ?_⟩
    have later := passed (name :: front) (by simp) (by simpa using before) mid (by rwa [step])
    simpa using later
  case mpr =>
    rintro ⟨⟨hidden, first⟩, shown, passed⟩
    refine ⟨List.forall_mem_cons.2 ⟨hidden, shown⟩, fun front filled before mid found => ?_⟩
    obtain ⟨front, rfl, inside⟩ := (List.prefix_cons_iff.1 before).resolve_left filled
    rw [step] at found
    by_cases deeper : front = []
    · subst deeper
      obtain rfl := Option.some.inj found
      exact first
    · simpa using passed front deeper inside mid found

end

-- What follows goes by the tree: below an entry it holds of more levels and a longer place.
variable {node : Inode} {entry : WalkEntry} {root : Path} {above : List Name} {depth : Nat}
variable (aside : ∀ l ∈ w.above, l.Silent) (proper : node.Proper)
  (silent : ∀ l ∈ levels, l.Silent) (unruled : UnruledBelow w.site.fs place)

include aside proper silent unruled

theorem mem_entriesIn (deep : depth = above.length) :
    entry ∈ w.entriesIn levels place (root.below above) depth node ↔
      ∃ names inner, names ≠ [] ∧ node.get? names = some inner ∧
        entry = .ofPlace root (above ++ names) inner ∧
        Admitted w.filter root above node names := by
  induction proper generalizing levels place above depth with
  | file content =>
    simp only [entriesIn, List.not_mem_nil, false_iff]
    rintro ⟨_ | ⟨name, rest⟩, inner, deeper, found, -⟩ <;> contradiction
  | link target =>
    simp only [entriesIn, List.not_mem_nil, false_iff]
    rintro ⟨_ | ⟨name, rest⟩, inner, deeper, found, -⟩ <;> contradiction
  | @dir entries here _ ih =>
    subst deep
    have deeper := unruled.silent (root.below above) silent
    have longer (name : Name) : above.length + 1 = (above ++ [name]).length := by simp
    have inside (name : Name) (node : Inode) (member : (name, node) ∈ entries) :=
      ih (name, node) member deeper (unruled.child name) (longer name)
    have own (name : Name) (node : Inode) :
        (WalkEntry.ofPlace root (above ++ [name]) node).name = name := by
      simp [WalkEntry.ofPlace]
    simp only [entriesIn, entriesOf_eq_flatMap, List.mem_flatMap, List.mem_ite_nil_right,
      admits_iff aside deeper, List.mem_cons, Prod.exists, childEntry_below, child_below, own]
    constructor
    case mp =>
      rintro ⟨name, node, member, admitted, walked⟩
      have known := find?_of_mem here.1 member
      rcases walked with rfl | walked
      · exact ⟨[name], node, by simp, get?_cons_eq_some_iff.2 ⟨node, known, rfl⟩, rfl,
          (admitted_cons_iff known).2 ⟨admitted, .nil⟩⟩
      · obtain ⟨rest, inner, -, found, rfl, later⟩ := (inside name node member).1 walked
        exact ⟨name :: rest, inner, by simp, get?_cons_eq_some_iff.2 ⟨node, known, found⟩, by simp,
          (admitted_cons_iff known).2 ⟨admitted, later⟩⟩
    case mpr =>
      rintro ⟨_ | ⟨name, rest⟩, inner, filled, found, rfl, admitted⟩
      · contradiction
      obtain ⟨node, known, found⟩ := get?_cons_eq_some_iff.1 found
      obtain ⟨first, later⟩ := (admitted_cons_iff known).1 admitted
      refine ⟨name, node, mem_of_find? known, first, ?_⟩
      by_cases last : rest = []
      · subst last
        obtain rfl := Option.some.inj found
        exact .inl rfl
      · exact .inr ((inside name node (mem_of_find? known)).2
          ⟨rest, inner, last, found, by simp, later⟩)

theorem path_of_mem_entriesIn (deep : depth = above.length)
    (walked : entry ∈ w.entriesIn levels place (root.below above) depth node) :
    ∃ names, names ≠ [] ∧ entry.path = (root.below above).below names ∧
      ∀ name ∈ names, IsName name := by
  obtain ⟨names, inner, filled, found, rfl, -⟩ :=
    (mem_entriesIn aside proper silent unruled deep).1 walked
  exact ⟨names, filled, by simp [WalkEntry.ofPlace, below_below], Proper.isName proper found⟩

theorem entriesIn_distinct (deep : depth = above.length) :
    (w.entriesIn levels place (root.below above) depth node).Pairwise
      (·.path.key ≠ ·.path.key) := by
  induction proper generalizing levels place above depth with
  | file content => simp [entriesIn]
  | link target => simp [entriesIn]
  | @dir entries here proper ih =>
    subst deep
    have deeper := unruled.silent (root.below above) silent
    have longer (name : Name) : above.length + 1 = (above ++ [name]).length := by simp
    have own (name : Name) (node : Inode) : (WalkEntry.ofPlace root (above ++ [name]) node).path =
        (root.below above).below [name] := by
      simp [WalkEntry.ofPlace, below_below]
    -- What is walked below an entry has a path that goes on with the name of the entry.
    have named {name : Name} {node : Inode} (member : (name, node) ∈ entries) {later : WalkEntry}
        (walked : later ∈ w.entriesIn ((Level.of w.site.fs place (root.below above)).1 :: levels)
          (place ++ [name]) (root.below (above ++ [name])) (above.length + 1) node) :
        ∃ rest, rest ≠ [] ∧ later.path = (root.below above).below (name :: rest) ∧
          ∀ n ∈ name :: rest, IsName n := by
      obtain ⟨rest, filled, path, names⟩ := path_of_mem_entriesIn aside (proper _ member) deeper
        (unruled.child name) (longer name) walked
      exact ⟨rest, filled, by simpa [below_below] using path,
        List.forall_mem_cons.2 ⟨here.2 _ member, names⟩⟩
    simp only [entriesIn, entriesOf_eq_flatMap, List.pairwise_flatMap, childEntry_below, child_below]
    constructor
    case left =>
      rintro ⟨name, node⟩ member
      split
      next =>
        refine List.pairwise_cons.2 ⟨fun later walked same => ?_,
          ih _ member deeper (unruled.child name) (longer name)⟩
        obtain ⟨rest, filled, path, names⟩ := named member walked
        rw [own, path] at same
        have alike : [name] = name :: rest := key_below_inj _ (by simpa using here.2 _ member) names same
        exact filled (List.cons.inj alike).2.symm
      next => exact .nil
    case right =>
      have opening {name : Name} {node : Inode} (member : (name, node) ∈ entries) {x : WalkEntry}
          (walked : x = .ofPlace root (above ++ [name]) node ∨
            x ∈ w.entriesIn ((Level.of w.site.fs place (root.below above)).1 :: levels)
              (place ++ [name]) (root.below (above ++ [name])) (above.length + 1) node) :
          ∃ rest, x.path = (root.below above).below (name :: rest) ∧ ∀ n ∈ name :: rest, IsName n := by
        rcases walked with rfl | walked
        · exact ⟨[], own name node, by simpa using here.2 _ member⟩
        · obtain ⟨rest, -, known⟩ := named member walked
          exact ⟨rest, known⟩
      have apart : entries.Pairwise (·.1 ≠ ·.1) := List.pairwise_map.1 here.1
      refine apart.imp_of_mem fun {entry entry'} member member' other x walked y walked' same => ?_
      rw [List.mem_ite_nil_right, List.mem_cons] at walked walked'
      obtain ⟨rest, path, names⟩ := opening member walked.2
      obtain ⟨rest', path', names'⟩ := opening member' walked'.2
      rw [path, path'] at same
      exact other (List.cons.inj (key_below_inj _ names names' same)).1

end Walk

section

variable {site : Site} {root : Path} (proper : site.fs.root.Proper)
  (unruled : ∀ place dir, site.fs.resolve site.here root = .ok place →
    dir <+: place ∨ place <+: dir → Unruled site.fs dir)
  {entries : List (Name × Inode)} (stands : site.fs.stat site.here root = .ok (.dir entries))

include proper unruled stands

theorem exists_walk (filter : WalkEntry → Bool) : ∃ below : List WalkEntry,
    walk site root filter = (rootEntry root (.dir entries) :: below).map .ok ∧
      below.Pairwise (·.path.key ≠ ·.path.key) ∧
      ∀ entry, entry ∈ below ↔ ∃ names inner, names ≠ [] ∧
        (Inode.dir entries).get? names = some inner ∧ entry = .ofPlace root names inner ∧
        Walk.Admitted filter root [] (.dir entries) names := by
  obtain ⟨place, resolved, found⟩ := FileSystem.stat_eq_ok_iff.1 stands
  have around (dir : List Name) := unruled place dir resolved
  have deeper : UnruledBelow site.fs place := fun dir later => around dir (.inr later)
  have tree : (Inode.dir entries).Proper := proper.get? found
  let aside := levelsAbove site.fs [] place ([], [])
  let w : Walk := { site, filter, root, place, above := aside.1 }
  have quiet : (∀ l ∈ w.above, l.Silent) ∧ aside.2 = [] :=
    levelsAbove_silent (fun dir before => around dir (.inl before)) (by simp) rfl
  have none : ∀ l ∈ ([] : List Level), l.Silent := by simp
  refine ⟨w.entriesIn [] place root 0 (.dir entries), ?_, ?_, fun entry => ?_⟩
  · have levels : levelsAbove site.fs [] place ([], []) = (w.above, []) := Prod.ext rfl quiet.2
    simp only [walk, resolved, found, levels]
    rfl
  · have distinct : (w.entriesIn [] place (root.below []) 0 (.dir entries)).Pairwise _ :=
      Walk.entriesIn_distinct quiet.1 tree none deeper rfl
    exact distinct
  · have listed : entry ∈ w.entriesIn [] place (root.below []) 0 (.dir entries) ↔ _ :=
      Walk.mem_entriesIn quiet.1 tree none deeper rfl
    exact listed

theorem walk_walks {filter : WalkEntry → Bool}
    (accepts : Walker.Passes filter root (.dir entries) []) :
    Walker.Walks site root (.dir entries) filter := by
  obtain ⟨below, walked, distinct, members⟩ := exists_walk proper unruled stands filter
  have same : Walker.walk site root filter = (rootEntry root (.dir entries) :: below).map .ok := walked
  constructor
  case sound =>
    intro item member
    obtain ⟨entry, listed, rfl⟩ := List.mem_map.1 (same ▸ member)
    rcases List.mem_cons.1 listed with rfl | deeper
    · exact ⟨[], .dir entries, _, rfl, rfl, ⟨rfl, rfl, by simp, rfl⟩, by simp,
        fun above before other => absurd (List.prefix_nil.1 before) other⟩
    · obtain ⟨names, inner, filled, found, rfl, admitted⟩ := (members entry).1 deeper
      refine ⟨names, inner, _, rfl, found, WalkEntry.at_ofPlace _ _ _, admitted.shown, ?_⟩
      intro above before _ node entry stands here
      by_cases first : above = []
      · subst first
        exact accepts node entry stands here
      · rw [here.eq_ofPlace first]
        exact admitted.passed above first before node stands
  case complete =>
    intro names node filled found shown passes
    rw [same]
    refine List.mem_map_of_mem (List.mem_cons_of_mem _ ((members _).2
      ⟨names, node, filled, found, rfl, shown, fun front _ before mid stands => ?_⟩))
    exact passes front before mid _ stands (WalkEntry.at_ofPlace _ _ _)
  case once =>
    rw [same]
    have each : (rootEntry root (.dir entries) :: below).Nodup := by
      have others : below.Nodup := distinct.imp fun other same => other (by rw [same])
      refine List.nodup_cons.2 ⟨fun member => ?_, others⟩
      obtain ⟨names, inner, filled, -, parts, -⟩ := (members _).1 member
      have depth : 0 = names.length := congrArg WalkEntry.depth parts
      exact filled (List.length_eq_zero_iff.1 depth.symm)
    exact List.pairwise_map.2 (each.imp fun other same => other (Except.ok.inj same))

end

end TestExplorer.Ignore
