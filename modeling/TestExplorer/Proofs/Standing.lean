import TestExplorer.Proofs.Requests

set_option autoImplicit false

namespace TestExplorer

theorem DiscoverySettings.recognizes_same (s : DiscoverySettings) {p q : Path} (same : p.Same q) :
    s.recognizes p = s.recognizes q := by
  rw [recognizes, recognizes, Path.extension?, Path.extension?, Path.fileName?, Path.fileName?, same]

/-! ## Buffers of one document -/

namespace Engine

variable (p : Path)

def bufferOf (buffers : List (Path × String)) : Option String :=
  (buffers.find? fun (known, _) => known.Same p).map (·.2)

def Distinct (buffers : List (Path × String)) : Prop :=
  buffers.Pairwise fun a b => ¬ a.1.Same b.1

theorem bufferOf_cons (buffer : Path × String) (rest : List (Path × String)) :
    bufferOf p (buffer :: rest) = if buffer.1.Same p then some buffer.2 else bufferOf p rest := by
  by_cases here : buffer.1.Same p <;> simp [bufferOf, here]

theorem bufferOf_withBuffer (q : Path) (source : String) (buffers : List (Path × String)) :
    bufferOf p (withBuffer q source buffers) =
      if q.Same p then some source else bufferOf p buffers := by
  induction buffers with
  | nil => simp [withBuffer, bufferOf_cons]
  | cons buffer rest ih =>
    obtain ⟨known, old⟩ := buffer
    by_cases same : known.Same q
    · have either : known.Same p ↔ q.Same p := ⟨same.symm.trans, same.trans⟩
      by_cases here : q.Same p <;> simp [withBuffer, same, bufferOf_cons, either, here]
    · by_cases here : q.Same p
      · have other : ¬ known.Same p := fun found => same (found.trans here.symm)
        simp [withBuffer, same, bufferOf_cons, ih, here, other]
      · simp [withBuffer, same, bufferOf_cons, ih, here]

theorem bufferOf_withoutBuffer (q : Path) (buffers : List (Path × String)) :
    bufferOf p (withoutBuffer q buffers) = if q.Same p then none else bufferOf p buffers := by
  induction buffers with
  | nil => simp [withoutBuffer, bufferOf]
  | cons buffer rest ih =>
    obtain ⟨known, old⟩ := buffer
    have parts : withoutBuffer q ((known, old) :: rest) =
        if known.Same q then withoutBuffer q rest else (known, old) :: withoutBuffer q rest := by
      by_cases same : known.Same q <;> simp [withoutBuffer, same]
    rw [parts]
    by_cases same : known.Same q
    · have either : known.Same p ↔ q.Same p := ⟨same.symm.trans, same.trans⟩
      by_cases here : q.Same p <;> simp [same, bufferOf_cons, ih, either, here]
    · by_cases here : q.Same p
      · have other : ¬ known.Same p := fun found => same (found.trans here.symm)
        simp [same, bufferOf_cons, ih, here, other]
      · simp [same, bufferOf_cons, ih, here]

-- A buffer that was not there before has the new text, under the new path or under the spelling it
-- had before.
theorem of_mem_withBuffer {q : Path} {source : String} {buffers : List (Path × String)}
    {buffer : Path × String} (member : buffer ∈ withBuffer q source buffers) :
    buffer ∈ buffers ∨ buffer.2 = source ∧
      (buffer.1 = q ∨ buffer.1.Same q ∧ ∃ old ∈ buffers, old.1 = buffer.1) := by
  induction buffers with
  | nil => exact .inr (by simp_all [withBuffer])
  | cons first rest ih =>
    obtain ⟨known, old⟩ := first
    unfold withBuffer at member
    split at member
    next same =>
      rcases List.mem_cons.1 member with rfl | later
      · exact .inr ⟨rfl, .inr ⟨same, (known, old), List.mem_cons_self, rfl⟩⟩
      · exact .inl (List.mem_cons_of_mem _ later)
    next =>
      rcases List.mem_cons.1 member with rfl | later
      · exact .inl List.mem_cons_self
      · rcases ih later with before | ⟨text, named | ⟨same, b, held, named⟩⟩
        · exact .inl (List.mem_cons_of_mem _ before)
        · exact .inr ⟨text, .inl named⟩
        · exact .inr ⟨text, .inr ⟨same, b, List.mem_cons_of_mem _ held, named⟩⟩

theorem mem_withBuffer {q : Path} {source : String} {buffers : List (Path × String)}
    {buffer : Path × String} (member : buffer ∈ withBuffer q source buffers) :
    buffer.1 = q ∨ ∃ old ∈ buffers, old.1 = buffer.1 := by
  rcases of_mem_withBuffer member with before | ⟨-, named | ⟨-, renamed⟩⟩
  · exact .inr ⟨buffer, before, rfl⟩
  · exact .inl named
  · exact .inr renamed

theorem Distinct.withBuffer {buffers : List (Path × String)} (distinct : Distinct buffers)
    (q : Path) (source : String) : Distinct (Engine.withBuffer q source buffers) := by
  induction buffers with
  | nil => simp [Engine.withBuffer, Distinct]
  | cons first rest ih =>
    obtain ⟨known, old⟩ := first
    obtain ⟨apart, later⟩ := List.pairwise_cons.1 distinct
    unfold Engine.withBuffer
    split
    next => exact List.pairwise_cons.2 ⟨apart, later⟩
    next other =>
      refine List.pairwise_cons.2 ⟨fun b member => ?_, ih later⟩
      rcases mem_withBuffer member with named | ⟨held, inside, named⟩
      · exact named ▸ other
      · exact named ▸ apart held inside

theorem Distinct.withoutBuffer {buffers : List (Path × String)} (distinct : Distinct buffers)
    (q : Path) : Distinct (Engine.withoutBuffer q buffers) :=
  distinct.sublist List.filter_sublist

end Engine

/-! ## What stands of one document -/

namespace Controller

variable {c : Controller} {p : Path} (recognized : c.recognizes p)

include recognized

theorem layer_editWrites (before : List Document) (q : Path) (source : String) :
    (c.editWrites q source).foldl (TreeWrite.layer p) before =
      if q.Same p then [Document.scan q source] else before := by
  unfold editWrites
  by_cases here : q.Same p
  · have known : c.recognizes q := (c.settings.recognizes_same here).trans recognized
    simp [known, TreeWrite.layer, Document.path_scan, here]
  · split <;> simp [TreeWrite.layer, Document.path_scan, here]

theorem layer_changeWrites (before : List Document) (d : Disk) (q : Path) :
    (c.changeWrites d q).foldl (TreeWrite.layer p) before =
      if q.Same p then ((d.text q).map (Document.scan q)).toList else before := by
  unfold changeWrites
  rw [Disk.documents_singleton]
  by_cases here : q.Same p
  · have known : c.recognizes q := (c.settings.recognizes_same here).trans recognized
    cases d.text q <;> simp [known, TreeWrite.layer, Document.path_scan, here]
  · split
    · cases d.text q <;> simp [TreeWrite.layer, Document.path_scan, here]
    · simp

theorem stand_editWrites (before : Option Document) (q : Path) (source : String) :
    (c.editWrites q source).foldl (TreeWrite.stand p) before =
      if q.Same p then some (Document.scan q source) else before := by
  have top := TreeWrite.head?_foldl_layer p before.toList (c.editWrites q source)
  rw [layer_editWrites recognized, Option.head?_toList] at top
  rw [← top]
  split <;> simp

theorem stand_changeWrites (before : Option Document) (d : Disk) (q : Path) :
    (c.changeWrites d q).foldl (TreeWrite.stand p) before =
      if q.Same p then (d.text q).map (Document.scan q) else before := by
  have top := TreeWrite.head?_foldl_layer p before.toList (c.changeWrites d q)
  rw [layer_changeWrites recognized, Option.head?_toList] at top
  rw [← top]
  split <;> simp

theorem stand_bufferWrites (before : Option Document) {buffers : List (Path × String)}
    (distinct : Engine.Distinct buffers) :
    ((buffers.flatMap fun (q, source) => c.editWrites q source).foldl (TreeWrite.stand p)
      before).map (·.warnings) =
        ((Engine.bufferOf p buffers).map warningsIn).or (before.map (·.warnings)) := by
  induction buffers generalizing before with
  | nil => simp [Engine.bufferOf]
  | cons buffer rest ih =>
    obtain ⟨q, source⟩ := buffer
    obtain ⟨apart, later⟩ := List.pairwise_cons.1 distinct
    rw [List.flatMap_cons, List.foldl_append, ih _ later, stand_editWrites recognized,
      Engine.bufferOf_cons]
    by_cases here : q.Same p
    · have alone : Engine.bufferOf p rest = none := by
        simp only [Engine.bufferOf, Option.map_eq_none_iff, List.find?_eq_none, decide_eq_true_eq]
        exact fun other member same => apart other member (here.trans same.symm)
      simp [here, alone, Document.warnings_eq_warningsIn]
    · simp [here]

end Controller

/-- Every listing of `p` is read as `p` is. -/
def Disk.ListsAlike (d : Disk) (roots : List Path) (p : Path) : Prop :=
  ∀ q ∈ d.files roots, q.Same p → d.text q = d.text p

/-- What discovery reads of `p`: the last listing of it that can be read counts. -/
def Disk.listedWarnings (d : Disk) (roots : List Path) (p : Path) : Option (List Warning) :=
  (((d.documents (d.files roots)).filter (·.path.Same p)).getLast?).map (·.warnings)

theorem Disk.listedWarnings_eq {d : Disk} {roots : List Path} {p : Path}
    (listed : p ∈ d.files roots) (alike : d.ListsAlike roots p) :
    d.listedWarnings roots p = (d.text p).map warningsIn := by
  unfold listedWarnings
  cases last : ((d.documents (d.files roots)).filter (·.path.Same p)).getLast? with
  | none =>
    cases read : d.text p with
    | none => rfl
    | some source =>
      have member : Document.scan p source ∈
          (d.documents (d.files roots)).filter (·.path.Same p) :=
        List.mem_filter.2 ⟨List.mem_filterMap.2 ⟨p, listed, by simp [read]⟩,
          by simp [Document.path_scan, Path.Same]⟩
      rw [List.getLast?_eq_none_iff.1 last] at member
      contradiction
  | some document =>
    obtain ⟨found, here⟩ := List.mem_filter.1 (List.mem_of_getLast? last)
    obtain ⟨q, listed', scanned⟩ := List.mem_filterMap.1 found
    obtain ⟨source, read, rfl⟩ := Option.map_eq_some_iff.1 scanned
    have same : q.Same p := of_decide_eq_true here
    rw [← alike q listed' same, read]
    exact congrArg some (Document.warnings_eq_warningsIn q source)

theorem Controller.stand_discoveryWrites {c : Controller} {p : Path}
    (recognized : c.recognizes p) (before : Option Document) (d : Disk)
    {buffers : List (Path × String)} (distinct : Engine.Distinct buffers) :
    ((c.discoveryWrites d buffers).foldl (TreeWrite.stand p) before).map (·.warnings) =
      ((Engine.bufferOf p buffers).map warningsIn).or (d.listedWarnings c.roots p) := by
  rw [discoveryWrites, List.foldl_cons, List.foldl_append, stand_bufferWrites recognized _ distinct,
    TreeWrite.foldl_stand_inserts]
  simp [TreeWrite.stand, Disk.listedWarnings]

/-! ## One text of one document -/

def Document.Uniform (scans : List Document) : Prop :=
  ∀ a ∈ scans, ∀ b ∈ scans, a.units = b.units

theorem Document.uniform_toList (scan? : Option Document) : Uniform scan?.toList := by
  cases scan? <;> simp [Uniform]

theorem Disk.uniform_documents {d : Disk} {roots : List Path} {p : Path}
    (alike : d.ListsAlike roots p) :
    Document.Uniform ((d.documents (d.files roots)).filter (·.path.Same p)) := by
  have scans : ∀ a ∈ (d.documents (d.files roots)).filter (·.path.Same p),
      ∃ q source, d.text p = some source ∧ a = Document.scan q source := by
    intro a member
    obtain ⟨found, here⟩ := List.mem_filter.1 member
    obtain ⟨q, listed, scanned⟩ := List.mem_filterMap.1 found
    obtain ⟨source, read, rfl⟩ := Option.map_eq_some_iff.1 scanned
    exact ⟨q, source, alike q listed (of_decide_eq_true here) ▸ read, rfl⟩
  intro a first b second
  obtain ⟨q, source, read, rfl⟩ := scans a first
  obtain ⟨q', source', read', rfl⟩ := scans b second
  obtain rfl := Option.some.inj (read.symm.trans read')
  rfl

section

variable {c : Controller} {p : Path} (recognized : c.recognizes p) {before : List Document}

include recognized

theorem Controller.uniform_editWrites (uniform : Document.Uniform before) (q : Path)
    (source : String) :
    Document.Uniform ((c.editWrites q source).foldl (TreeWrite.layer p) before) := by
  rw [layer_editWrites recognized]
  split
  next => exact Document.uniform_toList (some (Document.scan q source))
  next => exact uniform

theorem Controller.uniform_discoveryWrites {d : Disk} (alike : d.ListsAlike c.roots p)
    (buffers : List (Path × String)) :
    Document.Uniform ((c.discoveryWrites d buffers).foldl (TreeWrite.layer p) before) := by
  have listed : Document.Uniform
      (((d.documents (d.files c.roots)).map .insert).foldl (TreeWrite.layer p) []) := by
    rw [TreeWrite.foldl_layer_inserts, List.append_nil]
    intro a first b second
    exact Disk.uniform_documents alike a (List.mem_reverse.1 first) b (List.mem_reverse.1 second)
  rw [discoveryWrites, List.foldl_cons, List.foldl_append, List.foldl_flatMap]
  exact List.foldlRecOn (motive := Document.Uniform) buffers _ listed fun before uniform edit _ =>
    uniform_editWrites recognized uniform edit.1 edit.2

end

/-! ## The writes of requests -/

section

variable {c : Controller} {d : Disk} {document : Document}

theorem Disk.scan_of_documents {paths : List Path} (member : document ∈ d.documents paths) :
    ∃ q source, document = Document.scan q source := by
  obtain ⟨q, -, found⟩ := List.mem_filterMap.1 member
  obtain ⟨source, -, rfl⟩ := Option.map_eq_some_iff.1 found
  exact ⟨q, source, rfl⟩

theorem Controller.scan_of_editWrites {q : Path} {source : String}
    (member : .insert document ∈ c.editWrites q source) :
    ∃ q source, document = Document.scan q source := by
  unfold editWrites at member
  split at member
  next => exact ⟨q, source, by simpa using member⟩
  next => contradiction

theorem Controller.scan_of_discoveryWrites {buffers : List (Path × String)}
    (member : .insert document ∈ c.discoveryWrites d buffers) :
    ∃ q source, document = Document.scan q source := by
  unfold discoveryWrites at member
  rcases List.mem_append.1 (List.mem_of_ne_of_mem (by simp) member) with found | waiting
  · exact Disk.scan_of_documents (by simpa using found)
  · obtain ⟨buffer, -, member⟩ := List.mem_flatMap.1 waiting
    exact scan_of_editWrites member

end

namespace Request

variable (c : Controller) (d : Disk) (e : Engine)

def writes : Request → List TreeWrite
  | resolve _ | run _ _ _ => if e.discovered then [] else c.discoveryWrites d e.buffers
  | reload => c.discoveryWrites d e.buffers
  | cancel => []
  | edited path source => c.editWrites path source
  | changed path => c.changeWrites d path

def buffers : Request → List (Path × String)
  | resolve _ | run _ _ _ => if e.discovered then e.buffers else []
  | reload => []
  | cancel => e.buffers
  | edited path source =>
    if ¬ e.discovered ∧ c.recognizes path then Engine.withBuffer path source e.buffers
    else e.buffers
  | changed path => if e.discovered then e.buffers else Engine.withoutBuffer path e.buffers

def isAboutDocuments : Request → Bool
  | run _ _ _ => false
  | cancel => false
  | _ => true

variable {c d e}

theorem scan_of_insert {r : Request} {document : Document}
    (member : .insert document ∈ r.writes c d e) :
    ∃ q source, document = Document.scan q source := by
  cases r with
  | reload => exact Controller.scan_of_discoveryWrites member
  | cancel => contradiction
  | edited q source => exact Controller.scan_of_editWrites member
  | resolve id =>
    simp only [writes] at member
    split at member
    next => contradiction
    next => exact Controller.scan_of_discoveryWrites member
  | run scope options flag =>
    simp only [writes] at member
    split at member
    next => contradiction
    next => exact Controller.scan_of_discoveryWrites member
  | changed q =>
    simp only [writes, Controller.changeWrites] at member
    split at member
    next => exact Disk.scan_of_documents (by simpa using member)
    next => contradiction

theorem uniform_writes {p : Path} (recognized : c.recognizes p) (alike : d.ListsAlike c.roots p)
    {before : List Document} (uniform : Document.Uniform before) (r : Request) :
    Document.Uniform ((r.writes c d e).foldl (TreeWrite.layer p) before) := by
  have discovery :
      Document.Uniform ((c.discoveryWrites d e.buffers).foldl (TreeWrite.layer p) before) :=
    Controller.uniform_discoveryWrites recognized alike e.buffers
  cases r with
  | resolve id => simp only [writes]; split <;> assumption
  | run scope options flag => simp only [writes]; split <;> assumption
  | reload => exact discovery
  | cancel => exact uniform
  | edited q source => exact Controller.uniform_editWrites recognized uniform q source
  | changed q =>
    rw [writes, Controller.layer_changeWrites recognized]
    split
    next => exact Document.uniform_toList _
    next => exact uniform

variable {σ : Type} {h : Activity.Host σ} {disk : σ → Disk}

theorem outcome (serves : h.Serves disk) (live : e.disposed = false) (w : σ) {r : Request}
    (about : r.isAboutDocuments) :
    (r.activity c).writes h (e, w) = r.writes c (disk w) e ∧
      ((r.activity c).exec h (e, w)).2.1.status =
        (e.discovered || r.discovers, r.buffers c e, false) := by
  cases r with
  | run scope options flag => contradiction
  | cancel => contradiction
  | resolve id =>
    obtain ⟨writes', status⟩ := serves.resolve_outcome c e w live id
    refine ⟨(Activity.writes_discard _ _ _).trans writes', ?_⟩
    simp only [activity, Activity.exec_discard, status]
    cases known : e.discovered <;> simp [Engine.status, buffers, discovers, known, live]
  | reload =>
    obtain ⟨writes', -, status⟩ := serves.reload_outcome c e w live
    refine ⟨(Activity.writes_discard _ _ _).trans writes', ?_⟩
    simp [activity, Activity.exec_discard, status, buffers, discovers]
  | edited q source =>
    obtain ⟨writes', -, status⟩ := serves.documentEdited_outcome c e w live q source
    refine ⟨(Activity.writes_discard _ _ _).trans writes', ?_⟩
    simp [activity, Activity.exec_discard, status, buffers, discovers]
  | changed q =>
    obtain ⟨writes', -, status⟩ := serves.documentChanged_outcome c e w live q
    refine ⟨(Activity.writes_discard _ _ _).trans writes', ?_⟩
    simp [activity, Activity.exec_discard, status, buffers, discovers]

theorem uses (c : Controller) {r : Request} (about : r.isAboutDocuments) :
    (r.activity c).Uses HostAction.isAboutDocuments := by
  cases r with
  | run scope options flag => contradiction
  | cancel => contradiction
  | resolve id => exact (uses_resolve c id).map _
  | reload => exact (uses_reload c).map _
  | edited q source => exact (uses_documentEdited c q source).map _
  | changed q => exact (uses_documentChanged c q).map _

end Request

end TestExplorer
