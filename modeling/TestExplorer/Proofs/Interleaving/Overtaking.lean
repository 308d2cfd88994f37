import TestExplorer.Proofs.Interleaving.Staging

set_option autoImplicit false

namespace TestExplorer

namespace TreeWrite

variable {p : Path} {write : TreeWrite}

def Touches (p : Path) : TreeWrite → Prop
  | clear => True
  | evict path => path.Same p
  | insert document => document.path.Same p

theorem layer_untouched (apart : ¬ write.Touches p) (before : List Document) :
    layer p before write = before := by
  cases write with
  | clear => exact absurd trivial apart
  | evict path => exact if_neg apart
  | insert document => exact if_neg apart

end TreeWrite

namespace Scene

variable {ι : Type} {tasks : ι → Task} {p : Path} {ws : List (ι × TreeWrite)} {i j : ι}
  {w : TreeWrite} {d read placed : Document}

/-- The documents that have entered in this place since it was last empty, the latest first. -/
def layersOf (p : Path) (ws : List (ι × TreeWrite)) : List Document :=
  TreeWrite.layers p (ws.map (·.2))

theorem layersOf_append (ws later : List (ι × TreeWrite)) :
    layersOf p (ws ++ later) = (later.map (·.2)).foldl (TreeWrite.layer p) (layersOf p ws) := by
  rw [layersOf, List.map_append, TreeWrite.layers_append]
  rfl

theorem layersOf_concat (ws : List (ι × TreeWrite)) (i : ι) (w : TreeWrite) :
    layersOf p (ws ++ [(i, w)]) = TreeWrite.layer p (layersOf p ws) w :=
  layersOf_append ws [(i, w)]

theorem layersOf_untouched {later : List (ι × TreeWrite)} (apart : ∀ w ∈ later, ¬ w.2.Touches p) :
    layersOf p (ws ++ later) = layersOf p ws := by
  induction later using List.reverseRecOn with
  | nil => rw [List.append_nil]
  | append_singleton later last ih =>
    have before := ih fun w member => apart w (List.mem_append_left _ member)
    rw [← List.append_assoc, layersOf_concat, before]
    exact TreeWrite.layer_untouched (apart last (by simp)) _

theorem layersOf_cleared (before between : List (ι × TreeWrite)) (i : ι) :
    layersOf p (before ++ (i, .clear) :: between) = layersOf p between := by
  rw [layersOf_append]
  rfl

/-- The last that was done about the place is that `j` put the document there for what it evicted. -/
structure Replaced (p : Path) (ws : List (ι × TreeWrite)) (j : ι) (d : Document) : Prop where
  here : d.path.Same p
  last : ∃ before later, ws = before ++ (j, .evict d.path) :: (j, .insert d) :: later ∧
    ∀ w ∈ later, ¬ w.2.Touches p

/-- After `i` had cleared the tree, `j` put its own document there, and then `i` let what it had read
enter on top. -/
structure Overtaken (tasks : ι → Task) (p : Path) (ws : List (ι × TreeWrite)) (i j : ι)
    (read placed : Document) : Prop where
  apart : i ≠ j
  own : (tasks j).Reconciles placed.path
  here : read.path.Same p
  last : ∃ before between later,
    ws = before ++ (i, .clear) :: (between ++ (i, .insert read) :: later) ∧
      Replaced p between j placed ∧ ∀ w ∈ later, ¬ w.2.Touches p

theorem Replaced.concat (replaced : Replaced p ws j d) (apart : ¬ w.Touches p) (i : ι) :
    Replaced p (ws ++ [(i, w)]) j d := by
  obtain ⟨before, later, rfl, quiet⟩ := replaced.last
  refine ⟨replaced.here, before, later ++ [(i, w)], by simp, ?_⟩
  simpa [or_imp, forall_and, apart] using quiet

theorem Replaced.layers (replaced : Replaced p ws j d) : layersOf p ws = [d] := by
  obtain ⟨before, later, rfl, quiet⟩ := replaced.last
  have parts : before ++ (j, .evict d.path) :: (j, .insert d) :: later =
      before ++ [(j, .evict d.path)] ++ [(j, .insert d)] ++ later := by simp
  rw [parts, layersOf_untouched quiet, layersOf_concat, layersOf_concat]
  simp [TreeWrite.layer, replaced.here]

theorem Overtaken.concat {k : ι} (overtaken : Overtaken tasks p ws i j read placed)
    (apart : ¬ w.Touches p) : Overtaken tasks p (ws ++ [(k, w)]) i j read placed := by
  obtain ⟨before, between, later, rfl, replaced, quiet⟩ := overtaken.last
  refine ⟨overtaken.apart, overtaken.own, overtaken.here, before, between, later ++ [(k, w)],
    by simp, replaced, ?_⟩
  simpa [or_imp, forall_and, apart] using quiet

theorem Overtaken.layers (overtaken : Overtaken tasks p ws i j read placed) :
    layersOf p ws = [read, placed] := by
  obtain ⟨before, between, later, rfl, replaced, quiet⟩ := overtaken.last
  have parts : between ++ (i, .insert read) :: later =
      between ++ [(i, .insert read)] ++ later := by simp
  rw [layersOf_cleared, parts, layersOf_untouched quiet, layersOf_concat, replaced.layers]
  simp [TreeWrite.layer, overtaken.here]

/-- While `i` fills the tree: the place is empty, or somebody else has put its own document there. -/
def Fresh (tasks : ι → Task) (p : Path) (i : ι) (between : List (ι × TreeWrite)) : Prop :=
  layersOf p between = [] ∨
    ∃ j d, i ≠ j ∧ (tasks j).Reconciles d.path ∧ Replaced p between j d

theorem Fresh.concat (fresh : Fresh tasks p i ws) (apart : ¬ w.Touches p) (k : ι) :
    Fresh tasks p i (ws ++ [(k, w)]) := by
  rcases fresh with empty | ⟨j, d, other, own, replaced⟩
  · exact .inl (by rw [layersOf_concat, TreeWrite.layer_untouched apart, empty])
  · exact .inr ⟨j, d, other, own, replaced.concat apart k⟩

theorem Fresh.evict {q : Path} (fresh : Fresh tasks p i ws) (k : ι) :
    Fresh tasks p i (ws ++ [(k, .evict q)]) := by
  by_cases here : q.Same p
  · exact .inl (by rw [layersOf_concat, TreeWrite.layer, if_pos here])
  · exact fresh.concat (w := .evict q) here k

def Settled (tasks : ι → Task) (p : Path) (ws : List (ι × TreeWrite)) : Prop :=
  layersOf p ws = [] ∨ (∃ d, layersOf p ws = [d]) ∨
    ∃ i j read placed, Overtaken tasks p ws i j read placed

theorem Settled.concat (settled : Settled tasks p ws) (apart : ¬ w.Touches p) (k : ι) :
    Settled tasks p (ws ++ [(k, w)]) := by
  have same : layersOf p (ws ++ [(k, w)]) = layersOf p ws := by
    rw [layersOf_concat, TreeWrite.layer_untouched apart]
  rcases settled with none | ⟨d, one⟩ | ⟨i, j, read, placed, overtaken⟩
  · exact .inl (same.trans none)
  · exact .inr (.inl ⟨d, same.trans one⟩)
  · exact .inr (.inr ⟨i, j, read, placed, overtaken.concat apart⟩)

theorem Settled.evict {q : Path} (settled : Settled tasks p ws) (k : ι) :
    Settled tasks p (ws ++ [(k, .evict q)]) := by
  by_cases here : q.Same p
  · exact .inl (by rw [layersOf_concat, TreeWrite.layer, if_pos here])
  · exact settled.concat (w := .evict q) here k

theorem replaced_of_evicted {before : List (ι × TreeWrite)}
    (evicted : ws = before ++ [(j, .evict d.path)]) (here : d.path.Same p) :
    Replaced p (ws ++ [(j, .insert d)]) j d :=
  ⟨here, before, [], by simp [evicted], by simp⟩

-- A document that enters in an empty place stands alone, and on top of another request's it does
-- not.
theorem Fresh.settles {before : List (ι × TreeWrite)} (fresh : Fresh tasks p i ws)
    (here : d.path.Same p) :
    Settled tasks p (before ++ (i, .clear) :: (ws ++ [(i, .insert d)])) := by
  rcases fresh with empty | ⟨j, placed, other, own, replaced⟩
  · refine .inr (.inl ⟨d, ?_⟩)
    rw [layersOf_cleared, layersOf_concat, empty, TreeWrite.layer, if_pos here]
  · exact .inr (.inr ⟨i, j, d, placed, other, own, here, before, ws, [], rfl, replaced, by simp⟩)

theorem evicted_last {before before' between : List (ι × TreeWrite)} {q : Path}
    (same : before ++ (i, .clear) :: between = before' ++ [(j, .evict q)]) :
    ∃ middle, between = middle ++ [(j, .evict q)] := by
  rcases List.eq_nil_or_concat between with rfl | ⟨middle, last, rfl⟩
  · cases (List.append_inj' same rfl).2
  · have parts : (before ++ (i, .clear) :: middle) ++ [last] = before' ++ [(j, .evict q)] := by
      simpa using same
    exact ⟨middle, by rw [List.concat_eq_append, (List.append_inj' parts rfl).2]⟩

variable [DecidableEq ι] {s : Scene ι}

/-- How the writes so far account for the stages of the requests and for one document. -/
structure Accounts (tasks : ι → Task) (p : Path) (s : Scene ι) : Prop where
  evicted : ∀ i q, (s.stage i).tree = .evicted q →
    ∃ before, writes s.log = before ++ [(i, .evict q)]
  filling : ∀ i listed entered, (s.stage i).discovery = .filling listed entered →
    ∃ before between, writes s.log = before ++ (i, .clear) :: between ∧
      ((∀ q ∈ entered, ¬ q.Same p) → Fresh tasks p i between)
  settled : Settled tasks p (writes s.log)

section

variable {act : Act} {answers : Answers} {rest : Activity Task.Reply}

theorem filling_take {k : ι} {listed entered : List Path}
    (filling : ((s.take i act rest).stage k).discovery = .filling listed entered) :
    (k = i ∧ act = .state .clearTree () ∧ entered = []) ∨
      ∃ listed' entered', (s.stage k).discovery = .filling listed' entered' ∧
        entered = entered' ++ if k = i then act.entered else [] := by
  by_cases mine : k = i
  · subst mine
    rw [stage_take_self] at filling
    rcases Stage.filling_after filling with ⟨cleared, -, rfl⟩ | ⟨listed', entered', filled, -, rfl⟩
    · exact .inl ⟨rfl, cleared, rfl⟩
    · exact .inr ⟨listed', entered', filled, by rw [if_pos rfl]⟩
  · rw [stage_take_of_ne mine] at filling
    exact .inr ⟨listed, entered, filling, by rw [if_neg mine, List.append_nil]⟩

theorem Staging.evicted_take (staging : s.Staging tasks)
    (allowed : (s.stage i).Allows (Sent tasks) (tasks i).Reconciles act) (written : act.write? = some w) {k : ι} {q : Path}
    (evicted : ((s.take i act rest).stage k).tree = .evicted q) : k = i ∧ w = .evict q := by
  by_cases mine : k = i
  · subst mine
    rw [stage_take_self] at evicted
    rcases allowed.write_cases written with ⟨-, rfl, held⟩ | ⟨path, rfl, rfl, -⟩ |
      ⟨document, answer, -, rfl, -⟩
    · exact absurd (held.symm.trans evicted) (by simp)
    · cases evicted
      exact ⟨rfl, rfl⟩
    · cases evicted
  · rw [stage_take_of_ne mine] at evicted
    have held : (s.stage k).holds .tree := by simp [Stage.holds, evicted]
    exact absurd (staging.alone .tree (by simp) held (allowed.holds_tree written)) mine

end

namespace Accounts

variable {act : Act} {answers : Answers} {rest : Activity Task.Reply}
  (accounts : s.Accounts tasks p)

include accounts

theorem quiet (silent : act.write? = none) : (s.take i act rest).Accounts tasks p := by
  have same : writes (s.take i act rest).log = writes s.log := by
    rw [writes_take, silent]
    exact List.append_nil _
  constructor
  case evicted =>
    intro k q evicted
    rw [same]
    by_cases mine : k = i
    · subst mine
      rw [stage_take_self] at evicted
      exact accounts.evicted k q (Stage.evicted_after silent evicted)
    · rw [stage_take_of_ne mine] at evicted
      exact accounts.evicted k q evicted
  case filling =>
    intro k listed entered filling
    rw [same]
    rcases filling_take filling with ⟨-, rfl, -⟩ | ⟨listed', entered', filled, rfl⟩
    · cases silent
    · obtain ⟨before, between, parts, fresh⟩ := accounts.filling k listed' entered' filled
      refine ⟨before, between, parts, fun none => fresh fun q known => ?_⟩
      exact none q (List.mem_append_left _ known)
  case settled =>
    rw [same]
    exact accounts.settled

theorem write (staging : s.Staging tasks) (allowed : (s.stage i).Allows (Sent tasks) (tasks i).Reconciles act)
    (written : act.write? = some w)
    (fills : ∀ k listed entered before between,
      (s.stage k).discovery = .filling listed entered →
      writes s.log = before ++ (k, .clear) :: between →
      ((∀ q ∈ entered, ¬ q.Same p) → Fresh tasks p k between) →
      (∀ q ∈ entered ++ if k = i then act.entered else [], ¬ q.Same p) →
      Fresh tasks p k (between ++ [(i, w)]))
    (settles : Settled tasks p (writes s.log ++ [(i, w)])) : (s.take i act rest).Accounts tasks p := by
  have all : writes (s.take i act rest).log = writes s.log ++ [(i, w)] := by
    rw [writes_take, written]
    rfl
  constructor
  case evicted =>
    intro k q evicted
    obtain ⟨rfl, rfl⟩ := staging.evicted_take allowed written evicted
    exact ⟨writes s.log, all⟩
  case filling =>
    intro k listed entered filling
    rw [all]
    rcases filling_take filling with ⟨rfl, rfl, rfl⟩ | ⟨listed', entered', filled, rfl⟩
    · cases written
      exact ⟨writes s.log, [], rfl, fun _ => .inl rfl⟩
    · obtain ⟨before, between, parts, fresh⟩ := accounts.filling k listed' entered' filled
      refine ⟨before, between ++ [(i, w)], by simp [parts], fun none => ?_⟩
      exact fills k listed' entered' before between filled parts fresh none
  case settled =>
    rw [all]
    exact settles

theorem insert_inPlace (staging : s.Staging tasks) (allowed : (s.stage i).Allows (Sent tasks) (tasks i).Reconciles act)
    (written : act.write? = some (.insert d)) (here : d.path.Same p)
    (evicted : (s.stage i).tree = .evicted d.path) (calm : (s.stage i).discovery.Calm)
    (mine : (s.stage i).discovery = .away → (tasks i).Reconciles d.path) :
    (s.take i act rest).Accounts tasks p := by
  obtain ⟨before', all⟩ := accounts.evicted i d.path evicted
  refine accounts.write staging allowed written ?fills ?settles
  case fills =>
    intro k listed entered before between filled parts fresh none
    have other : k ≠ i := fun same => calm listed entered (same ▸ filled)
    have inside : (s.stage k).holds .discovery := by simp [Stage.holds, filled]
    have away : (s.stage i).discovery = .away := by
      by_contra inside'
      exact other (staging.alone .discovery (by simp) inside inside')
    obtain ⟨middle, last⟩ := evicted_last (parts.symm.trans all)
    exact .inr ⟨i, d, other, mine away, replaced_of_evicted last here⟩
  case settles => exact .inr (.inl ⟨d, (replaced_of_evicted all here).layers⟩)

theorem insert_listed (staging : s.Staging tasks) (allowed : (s.stage i).Allows (Sent tasks) (tasks i).Reconciles act)
    (written : act.write? = some (.insert d)) (here : d.path.Same p)
    (distinct : (listings i s.log).Pairwise fun q r => ¬ q.Same r) {listed entered : List Path}
    (filled : (s.stage i).discovery = .filling listed entered)
    (known : (entered ++ [d.path]).Sublist listed) : (s.take i act rest).Accounts tasks p := by
  refine accounts.write staging allowed written ?fills ?settles
  case fills =>
    intro k listed' entered' before between filled' parts fresh none
    have inside : (s.stage i).holds .discovery := by simp [Stage.holds, filled]
    have inside' : (s.stage k).holds .discovery := by simp [Stage.holds, filled']
    obtain rfl : k = i := staging.alone .discovery (by simp) inside' inside
    refine absurd here (none d.path (List.mem_append_right _ ?_))
    rw [if_pos rfl, Act.entered_of_write written]
    exact List.mem_singleton_self _
  case settles =>
    obtain ⟨before, between, parts, fresh⟩ := accounts.filling i listed entered filled
    have apart := distinct.sublist (known.trans (staging.listed i listed entered filled))
    have first : ∀ q ∈ entered, ¬ q.Same p := fun q member same =>
      (List.pairwise_append.1 apart).2.2 q member d.path (by simp) (same.trans here.symm)
    rw [parts, List.append_assoc, List.cons_append]
    exact (fresh first).settles here

theorem take (staging : s.Staging tasks) (taken : s.next i answers = some (act, rest))
    (distinct : (listings i s.log).Pairwise fun q r => ¬ q.Same r) :
    (s.take i act rest).Accounts tasks p := by
  have allowed := (staging.step taken).1
  cases written : act.write? with
  | none => exact accounts.quiet written
  | some w =>
    rcases allowed.write_cases written with ⟨rfl, -⟩ | ⟨q, rfl, -⟩ | ⟨d, answer, rfl, -, enters, -⟩
    · refine accounts.write staging allowed written ?_ (.inl (layersOf_concat _ _ _))
      exact fun _ _ _ _ between _ _ _ _ => .inl (layersOf_concat between _ _)
    · refine accounts.write staging allowed written ?_ (accounts.settled.evict i)
      exact fun _ _ _ _ _ _ _ fresh none =>
        (fresh fun r member => none r (List.mem_append_left _ member)).evict i
    · by_cases here : d.path.Same p
      · cases enters with
        | inPlace evicted calm mine =>
          exact accounts.insert_inPlace staging allowed written here evicted calm mine
        | listed listed entered held filled known =>
          exact accounts.insert_listed staging allowed written here distinct filled known
      · have away : ¬ (TreeWrite.insert d).Touches p := here
        refine accounts.write staging allowed written ?_ (accounts.settled.concat away i)
        exact fun _ _ _ _ _ _ _ fresh none =>
          (fresh fun r member => none r (List.mem_append_left _ member)).concat away i

end Accounts

theorem accounts_start (c : Controller) (tasks : ι → Task) (e : Engine) :
    (start c tasks e).Accounts tasks p where
  evicted i q evicted := by simp [stage, stageIn, start] at evicted
  filling i listed entered filling := by simp [stage, stageIn, start] at filling
  settled := .inl rfl

/-- No request is told of a file twice. -/
def ListsOnce (s : Scene ι) : Prop :=
  ∀ i, (listings i s.log).Pairwise fun q r => ¬ q.Same r

theorem ListsOnce.of_take {i : ι} {act : Act} {rest : Activity Task.Reply}
    (once : (s.take i act rest).ListsOnce) : s.ListsOnce := by
  intro j
  have distinct := once j
  rw [listings_take] at distinct
  exact distinct.sublist (List.sublist_append_left _ _)

theorem Staging.accounts_play (staging : s.Staging tasks) (accounts : s.Accounts tasks p) (moves : List (Move ι)) :
    (s.play moves).Staging tasks ∧ ((s.play moves).ListsOnce → (s.play moves).Accounts tasks p) := by
  refine play_induction (P := fun s => s.Staging tasks ∧ (s.ListsOnce → s.Accounts tasks p))
    ?raise ?take ⟨staging, fun _ => accounts⟩ moves
  case raise =>
    rintro s flag ⟨staging, accounts⟩
    exact ⟨{ staging with }, fun once => { accounts once with }⟩
  case take =>
    rintro s i answers act rest ⟨staging, accounts⟩ taken
    refine ⟨staging.take taken, fun once => ?_⟩
    exact (accounts once.of_take).take staging taken (once.of_take i)

end Scene

end TestExplorer
