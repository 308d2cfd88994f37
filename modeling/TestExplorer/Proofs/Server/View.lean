import TestExplorer.Proofs.Standing

set_option autoImplicit false

namespace TestExplorer

structure View where
  discovered : Bool := false
  -- The warnings of the buffer that waits for the first discovery.
  buffer : Option (List Warning) := none
  -- The warnings of the text that stands in the tree.
  inTree : Option (List Warning) := none
  -- The warnings that were published last.
  shown : Option (List Warning) := none

namespace View

section

variable (p : Path) (listed : Option (List Warning)) (read : Path → Option (List Warning))

/-- What a request makes of the view of `p`, of which discovery reads what `listed` says. -/
def next (v : View) : Request → View
  | .resolve _ | .run _ _ _ =>
    if v.discovered then v
    else { v with discovered := true, buffer := none, inTree := v.buffer.or listed }
  | .reload =>
    { discovered := true, buffer := none, inTree := v.buffer.or listed
      shown := listed.or v.shown }
  | .cancel => v
  | .edited q source =>
    if q.Same p then
      { v with
        buffer := if v.discovered then v.buffer else some (warningsIn source)
        inTree := some (warningsIn source), shown := some (warningsIn source) }
    else v
  | .changed q =>
    if q.Same p then
      { v with
        buffer := if v.discovered then v.buffer else none
        inTree := read q, shown := some ((read q).getD []) }
    else v

variable (v : View) (q : Path) (source : String)

@[simp] theorem discovered_edited :
    (v.next p listed read (.edited q source)).discovered = v.discovered := by
  simp only [next]
  split <;> rfl

@[simp] theorem buffer_edited : (v.next p listed read (.edited q source)).buffer =
    if q.Same p ∧ ¬ v.discovered then some (warningsIn source) else v.buffer := by
  by_cases here : q.Same p <;> cases known : v.discovered <;> simp [next, here, known]

@[simp] theorem inTree_edited : (v.next p listed read (.edited q source)).inTree =
    if q.Same p then some (warningsIn source) else v.inTree := by
  by_cases here : q.Same p <;> simp [next, here]

@[simp] theorem shown_edited : (v.next p listed read (.edited q source)).shown =
    if q.Same p then some (warningsIn source) else v.shown := by
  by_cases here : q.Same p <;> simp [next, here]

@[simp] theorem discovered_changed :
    (v.next p listed read (.changed q)).discovered = v.discovered := by
  simp only [next]
  split <;> rfl

@[simp] theorem buffer_changed : (v.next p listed read (.changed q)).buffer =
    if q.Same p ∧ ¬ v.discovered then none else v.buffer := by
  by_cases here : q.Same p <;> cases known : v.discovered <;> simp [next, here, known]

@[simp] theorem inTree_changed : (v.next p listed read (.changed q)).inTree =
    if q.Same p then read q else v.inTree := by
  by_cases here : q.Same p <;> simp [next, here]

@[simp] theorem shown_changed : (v.next p listed read (.changed q)).shown =
    if q.Same p then some ((read q).getD []) else v.shown := by
  by_cases here : q.Same p <;> simp [next, here]

end

end View

/-! ## Histories, from the latest request back to the first -/

namespace Request

def editOf (p : Path) : List Request → Option String
  | [] => none
  | .edited q source :: earlier => if q.Same p then some source else editOf p earlier
  | .changed q :: earlier => if q.Same p then none else editOf p earlier
  | _ :: earlier => editOf p earlier

/-- A reload came last that did not show what it left in the tree. The first discovery keeps an edited
text but shows what was read; a later one drops the text but shows nothing when nothing was read. -/
def overtaken (p : Path) (readable : Bool) : List Request → Bool
  | [] => false
  | .reload :: earlier =>
    (editOf p earlier).isSome && readable == !earlier.any Request.discovers
  | .edited q _ :: earlier => !decide (q.Same p) && overtaken p readable earlier
  | .changed q :: earlier => !decide (q.Same p) && overtaken p readable earlier
  | _ :: earlier => overtaken p readable earlier

end Request

namespace View

structure Follows (v : View) (p : Path) (listed : Option (List Warning))
    (requests : List Request) : Prop where
  discovered : v.discovered = requests.any Request.discovers
  buffer : v.buffer =
    if v.discovered then none else (Request.editOf p requests).map warningsIn
  -- Before the first discovery, and for good when discovery reads nothing.
  drafted : ∀ draft, Request.editOf p requests = some draft → v.discovered = false ∨ listed = none →
    v.shown = some (warningsIn draft)
  standing : ∀ draft, Request.editOf p requests = some draft → v.discovered = false →
    v.inTree = some (warningsIn draft)
  unedited : Request.editOf p requests = none → v.discovered = false ∨ listed = none →
    v.shown = none ∨ v.shown = some (listed.getD []) ∧ v.inTree = listed
  agrees : Request.overtaken p listed.isSome requests = false →
    ∀ warnings, v.shown = some warnings → warnings = v.inTree.getD []
  differs : Request.overtaken p listed.isSome requests →
    ∃ draft, Request.editOf p requests = some draft ∧
      ((∀ saved, listed = some saved →
        v.shown = some saved ∧ v.inTree = some (warningsIn draft)) ∧
      (listed = none → v.shown = some (warningsIn draft) ∧ v.inTree = none))

variable {p : Path} {listed : Option (List Warning)} {read : Path → Option (List Warning)}
  {v : View} {requests : List Request}

theorem follows_empty : View.Follows {} p listed [] := by
  constructor <;> simp [Request.editOf, Request.overtaken]

theorem Follows.discover (follows : v.Follows p listed requests) {r : Request}
    (discovers : r.discovers) (latest : Request.editOf p (r :: requests) = Request.editOf p requests)
    (late : Request.overtaken p listed.isSome (r :: requests) =
      Request.overtaken p listed.isSome requests) :
    View.Follows
      (if v.discovered then v
        else { v with discovered := true, buffer := none, inTree := v.buffer.or listed })
      p listed (r :: requests) := by
  obtain ⟨discovered, buffer, drafted, standing, unedited, agrees, differs⟩ := follows
  have any : (r :: requests).any Request.discovers = true := by simp [discovers]
  cases known : v.discovered with
  | true =>
    rw [if_pos rfl]
    constructor <;> simp only [any, latest, late] <;> assumption
  | false =>
    rw [if_neg Bool.false_ne_true]
    -- What waits in the buffer is the latest edit, and it is shown already.
    cases draft : Request.editOf p requests with
    | some text =>
      have shown := drafted text draft (.inl known)
      have waiting : v.buffer = some (warningsIn text) := by simp [buffer, known, draft]
      constructor <;> grind
    | none =>
      have waiting : v.buffer = none := by simp [buffer, known, draft]
      have shown := unedited draft (.inl known)
      constructor <;> grind

theorem Follows.reload (follows : v.Follows p listed requests) :
    (v.next p listed read .reload).Follows p listed (.reload :: requests) := by
  obtain ⟨discovered, buffer, drafted, standing, unedited, agrees, differs⟩ := follows
  have first : requests.any Request.discovers = v.discovered := discovered.symm
  constructor <;>
    simp only [View.next, Request.editOf, Request.overtaken, List.any_cons, Request.discovers, first]
  case agrees =>
    intro kept warnings shown
    cases found : listed with
    | some saved =>
      -- What was read is shown, and no edited text stands over it.
      have waiting : v.buffer = none := by
        rw [buffer]
        cases known : v.discovered with
        | true => rfl
        | false =>
          have latest : Request.editOf p requests = none := by simpa [found, known] using kept
          simp [latest]
      simpa [found, waiting, eq_comm] using shown
    | none =>
      -- Nothing is shown anew, and what was shown before is that of the buffer or is empty.
      have before : v.shown = some warnings := by simpa [found] using shown
      cases latest : Request.editOf p requests with
      | some draft =>
        have early : v.discovered = false := by simpa [latest, found] using kept
        have same := drafted draft latest (.inl early)
        simp_all
      | none =>
        have waiting : v.buffer = none := by simp [buffer, latest]
        rcases unedited latest (.inr found) with unseen | ⟨empty, -⟩
        · simp [before] at unseen
        · simpa [before, found, waiting] using empty
  case differs =>
    intro late
    obtain ⟨draft, latest⟩ := Option.isSome_iff_exists.1 (Bool.and_eq_true_iff.1 late).1
    refine ⟨draft, latest, fun saved found => ?_, fun unread => ?_⟩
    · have early : v.discovered = false := by grind
      simp [buffer, early, latest, found]
    · have again : v.discovered = true := by grind
      simp [buffer, again, unread, drafted draft latest (.inr unread)]
  all_goals grind

theorem Follows.edit (follows : v.Follows p listed requests) (q : Path) (source : String) :
    (v.next p listed read (.edited q source)).Follows p listed (.edited q source :: requests) := by
  obtain ⟨discovered, buffer, drafted, standing, unedited, agrees, differs⟩ := follows
  constructor <;> simp only [View.next, Request.editOf, Request.overtaken, List.any_cons,
    Request.discovers] <;> grind

theorem Follows.change (follows : v.Follows p listed requests) {q : Path}
    (alike : q.Same p → read q = listed) :
    (v.next p listed read (.changed q)).Follows p listed (.changed q :: requests) := by
  obtain ⟨discovered, buffer, drafted, standing, unedited, agrees, differs⟩ := follows
  constructor <;> simp only [View.next, Request.editOf, Request.overtaken, List.any_cons,
    Request.discovers] <;> grind

theorem Follows.next (follows : v.Follows p listed requests) (r : Request)
    (alike : ∀ q, r = .changed q → q.Same p → read q = listed) :
    (v.next p listed read r).Follows p listed (r :: requests) := by
  cases r with
  | resolve id => exact follows.discover rfl rfl rfl
  | run scope options flag => exact follows.discover rfl rfl rfl
  | reload => exact follows.reload
  | cancel =>
    obtain ⟨discovered, buffer, drafted, standing, unedited, agrees, differs⟩ := follows
    exact ⟨discovered, buffer, drafted, standing, unedited, agrees, differs⟩
  | edited q source => exact follows.edit q source
  | changed q => exact follows.change (alike q rfl)

theorem Follows.run (follows : v.Follows p listed requests) (later : List Request)
    (alike : ∀ q, .changed q ∈ later → q.Same p → read q = listed) :
    (later.foldl (View.next p listed read) v).Follows p listed (later.reverse ++ requests) := by
  induction later generalizing v requests with
  | nil => exact follows
  | cons r rest ih =>
    have first := follows.next r fun q same => alike q (same ▸ List.mem_cons_self)
    rw [List.foldl_cons, List.reverse_cons, List.append_assoc]
    exact ih first fun q member => alike q (List.mem_cons_of_mem r member)

/-! ## The view of an engine -/

def step (p : Path) (c : Controller) (d : Disk) : View → Request → View :=
  next p (d.listedWarnings c.roots p) fun q => (d.text q).map warningsIn

/-- The view of `p` agrees with the engine and with what has been written to its tree. -/
structure Pictures (v : View) (p : Path) (e : Engine) (writes : List TreeWrite) : Prop where
  discovered : e.discovered = v.discovered
  distinct : Engine.Distinct e.buffers
  buffer : (Engine.bufferOf p e.buffers).map warningsIn = v.buffer
  inTree : (TreeWrite.standing p writes).map (·.warnings) = v.inTree

theorem pictures_empty (p : Path) : View.Pictures {} p {} [] :=
  ⟨rfl, .nil, rfl, rfl⟩

section

variable {c : Controller} {d : Disk} {e e' : Engine} {writes : List TreeWrite}

theorem Pictures.discovery {v' : View} (pictures : v.Pictures p e writes)
    (recognized : c.recognizes p) (discovered : e'.discovered) (buffers : e'.buffers = [])
    (known : v'.discovered) (buffer : v'.buffer = none)
    (inTree : v'.inTree = v.buffer.or (d.listedWarnings c.roots p)) :
    v'.Pictures p e' (writes ++ c.discoveryWrites d e.buffers) := by
  constructor
  case discovered => rw [discovered, known]
  case distinct => exact buffers ▸ .nil
  case buffer => rw [buffers, buffer]; rfl
  case inTree =>
    rw [TreeWrite.standing_append, Controller.stand_discoveryWrites recognized _ _ pictures.distinct,
      pictures.buffer, inTree]

theorem Pictures.lookUp (pictures : v.Pictures p e writes) (recognized : c.recognizes p)
    (discovered : e'.discovered) (buffers : e'.buffers = if e.discovered then e.buffers else []) :
    Pictures
      (if v.discovered then v
        else { v with
          discovered := true, buffer := none, inTree := v.buffer.or (d.listedWarnings c.roots p) })
      p e' (writes ++ if e.discovered then [] else c.discoveryWrites d e.buffers) := by
  have known := pictures.discovered
  cases early : e.discovered with
  | true =>
    rw [early, if_pos rfl] at buffers
    rw [← known, early, if_pos rfl, if_pos rfl, List.append_nil]
    exact ⟨by rw [discovered, ← known, early], buffers ▸ pictures.distinct,
      buffers ▸ pictures.buffer, pictures.inTree⟩
  | false =>
    rw [early, if_neg Bool.false_ne_true] at buffers
    rw [← known, early, if_neg Bool.false_ne_true, if_neg Bool.false_ne_true]
    exact pictures.discovery recognized discovered buffers rfl rfl rfl

theorem Pictures.step (pictures : v.Pictures p e writes) (recognized : c.recognizes p) (r : Request)
    (discovered : e'.discovered = (e.discovered || r.discovers))
    (buffers : e'.buffers = r.buffers c e) :
    (v.step p c d r).Pictures p e' (writes ++ r.writes c d e) := by
  have same {q : Path} (here : q.Same p) : c.recognizes q :=
    (c.settings.recognizes_same here).trans recognized
  have known := pictures.discovered
  cases r with
  | resolve id => exact pictures.lookUp recognized (by simp [discovered, Request.discovers]) buffers
  | run scope options flag =>
    exact pictures.lookUp recognized (by simp [discovered, Request.discovers]) buffers
  | reload =>
    exact pictures.discovery recognized (by simp [discovered, Request.discovers]) buffers rfl rfl rfl
  | cancel =>
    simp only [Request.discovers, Request.buffers, Bool.or_false] at discovered buffers
    rw [Request.writes, List.append_nil]
    exact ⟨discovered.trans known, buffers ▸ pictures.distinct, buffers ▸ pictures.buffer,
      pictures.inTree⟩
  | edited q source =>
    simp only [Request.discovers, Request.buffers, Bool.or_false] at discovered buffers
    constructor
    case discovered => rw [discovered, known, View.step, discovered_edited]
    case distinct =>
      rw [buffers]
      split
      next => exact pictures.distinct.withBuffer q source
      next => exact pictures.distinct
    case buffer =>
      rw [buffers, View.step, buffer_edited, ← known, ← pictures.buffer]
      by_cases here : q.Same p
      · cases early : e.discovered <;> simp [here, same here, Engine.bufferOf_withBuffer]
      · split <;> simp [here, Engine.bufferOf_withBuffer]
    case inTree =>
      rw [TreeWrite.standing_append, Request.writes, Controller.stand_editWrites recognized,
        View.step, inTree_edited]
      split
      next => exact congrArg some (Document.warnings_eq_warningsIn q source)
      next => exact pictures.inTree
  | changed q =>
    simp only [Request.discovers, Request.buffers, Bool.or_false] at discovered buffers
    constructor
    case discovered => rw [discovered, known, View.step, discovered_changed]
    case distinct =>
      rw [buffers]
      split
      next => exact pictures.distinct
      next => exact pictures.distinct.withoutBuffer q
    case buffer =>
      rw [buffers, View.step, buffer_changed, ← known, ← pictures.buffer]
      cases early : e.discovered with
      | true => simp
      | false => by_cases here : q.Same p <;> simp [here, Engine.bufferOf_withoutBuffer]
    case inTree =>
      rw [TreeWrite.standing_append, Request.writes, Controller.stand_changeWrites recognized,
        View.step, inTree_changed]
      split
      next => simp [Option.map_map, Function.comp_def, Document.warnings_eq_warningsIn]
      next => exact pictures.inTree

end

end View

end TestExplorer
