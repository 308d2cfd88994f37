import TestExplorer.Proofs.Components
import TestExplorer.Proofs.Server.Publishing
import TestExplorer.Proofs.Server.View

set_option autoImplicit false

namespace TestExplorer.Server

variable {U : Type} [Addresses U]

namespace Publication

variable (p : Path)

def concerns (x : Publication U) : Bool :=
  ((Addresses.toPath? x.uri).map fun q => decide (q.Same p)).getD false

def lastShown (published : List (Publication U)) : Option (List Diagnostic) :=
  ((published.filter (·.concerns p)).getLast?).map (·.diagnostics)

theorem lastShown_append (a b : List (Publication U)) :
    lastShown p (a ++ b) = (lastShown p b).or (lastShown p a) := by
  simp only [lastShown, List.filter_append, List.getLast?_append]
  cases (b.filter (·.concerns p)).getLast? <;> rfl

theorem lastShown_singleton (x : Publication U) :
    lastShown p [x] = if x.concerns p then some x.diagnostics else none := by
  cases about : x.concerns p <;> simp [lastShown, about]

variable {p}

theorem concerns_of_toPath? {x : Publication U} {q : Path} (named : Addresses.toPath? x.uri = some q) :
    x.concerns p = decide (q.Same p) := by
  simp [concerns, named]

theorem isAbsolute_of_concerns (lawful : Addresses.Lawful U) {x : Publication U} (about : x.concerns p) : p.isAbsolute := by
  unfold concerns at about
  cases named : Addresses.toPath? x.uri with
  | none => simp [named] at about
  | some q =>
    have same : q.Same p := by simpa [named] using about
    exact same.isAbsolute_eq ▸ lawful.absolute _ _ named

theorem isAbsolute_of_lastShown (lawful : Addresses.Lawful U) {published : List (Publication U)} {shown : List Diagnostic}
    (last : lastShown p published = some shown) : p.isAbsolute := by
  obtain ⟨x, found, -⟩ := Option.map_eq_some_iff.1 last
  exact isAbsolute_of_concerns lawful (List.mem_filter.1 (List.mem_of_getLast? found)).2

theorem lastShown_of (uri : U) {path : Path} (named : Addresses.toPath? uri = some path)
    (version : Option Int) (warnings : List Warning) :
    lastShown p [of uri version warnings] =
      if path.Same p then some (warnings.map Warning.diagnostic) else none := by
  rw [lastShown_singleton,
    concerns_of_toPath? (show Addresses.toPath? (of uri version warnings).uri = some path from named)]
  simp [of]

theorem lastShown_ofRemarks? (lawful : Addresses.Lawful U) {q : Path} (absolute : q.isAbsolute) (warnings : List Warning) :
    lastShown p (ofRemarks? (q, warnings)).toList =
      if q.Same p then some (warnings.map Warning.diagnostic) else none := by
  obtain ⟨u, q', address, named, same⟩ := lawful.returns q absolute
  have either : q'.Same p ↔ q.Same p := ⟨same.symm.trans, same.trans⟩
  rw [ofRemarks?, address, Option.map_some, Option.toList_some, lastShown_of u named]
  simp [either]

theorem lastShown_remarks (lawful : Addresses.Lawful U) (absolute : p.isAbsolute) (remarks : List (Path × List Warning)) :
    lastShown p (remarks.filterMap ofRemarks?) =
      ((remarks.filter (·.1.Same p)).getLast?).map (·.2.map Warning.diagnostic) := by
  induction remarks using List.reverseRecOn with
  | nil => rfl
  | append_singleton remarks r ih =>
    have last : [r].filterMap ofRemarks? = (ofRemarks? r).toList := by
      cases found : ofRemarks? r <;> simp [found]
    rw [List.filterMap_append, lastShown_append, ih, last]
    cases rooted : r.1.isAbsolute with
    | true =>
      rw [lastShown_ofRemarks? lawful rooted r.2]
      by_cases here : r.1.Same p <;> simp [here]
    | false =>
      have elsewhere : ¬ r.1.Same p := by
        intro here
        rw [here.isAbsolute_eq, absolute] at rooted
        contradiction
      have unnamed : (Addresses.ofPath? r.1 : Option U) = none :=
        Option.eq_none_iff_forall_ne_some.2 fun u named =>
          absurd (lawful.rooted r.1 u named) (by simp [rooted])
      simp [ofRemarks?, unnamed, elsewhere, lastShown]

end Publication

section

variable {p : Path} {c : Controller} {d : Disk}

theorem lastShown_listing (lawful : Addresses.Lawful U) (absolute : p.isAbsolute) (roots : List Path) :
    Publication.lastShown p
        (((d.documents (d.files roots)).map Document.remarks).filterMap Publication.ofRemarks?) =
      (d.listedWarnings roots p).map (·.map Warning.diagnostic) := by
  rw [Publication.lastShown_remarks lawful absolute, Disk.listedWarnings, List.filter_map,
    List.getLast?_map, Option.map_map, Option.map_map]
  rfl

theorem Task.lastShown_publications (lawful : Addresses.Lawful U) (recognized : c.recognizes p) (absolute : p.isAbsolute)
    (t : Task U) (v : View) :
    (Publication.lastShown p (t.publications c d)).or (v.shown.map (·.map Warning.diagnostic)) =
      ((t.request?.toList.foldl (View.step p c d) v).shown).map (·.map Warning.diagnostic) := by
  have known {path : Path} (here : path.Same p) : c.recognizes path :=
    (c.settings.recognizes_same here).trans recognized
  cases t with
  | resolve id =>
    simp only [publications, request?, Option.toList_some, List.foldl_cons, List.foldl_nil,
      View.step, View.next]
    split <;> rfl
  | reload =>
    simp only [publications, lastShown_listing lawful absolute, request?, Option.toList_some,
      List.foldl_cons, List.foldl_nil, View.step, View.next]
    cases d.listedWarnings c.roots p <;> rfl
  | edited uri text version =>
    cases named : Addresses.toPath? uri with
    | none => simp [publications, request?, named, Publication.lastShown]
    | some path =>
      simp only [publications, request?, named, Option.map_some, Option.toList_some,
        List.foldl_cons, List.foldl_nil, View.step, View.shown_edited]
      by_cases here : path.Same p
      · rw [if_pos (known here), Publication.lastShown_of uri named, if_pos here, if_pos here]
        rfl
      · rw [if_neg here]
        split
        next => rw [Publication.lastShown_of uri named, if_neg here, Option.none_or]
        next => rfl
  | changed uri =>
    cases named : Addresses.toPath? uri with
    | none => simp [publications, request?, named, Publication.lastShown]
    | some path =>
      have rooted := lawful.absolute _ _ named
      simp only [publications, request?, named, Option.map_some, Option.toList_some,
        List.foldl_cons, List.foldl_nil, View.step, View.shown_changed]
      by_cases here : path.Same p
      · rw [if_pos (known here), if_pos here]
        cases d.text path with
        | some source =>
          simp only [Publication.lastShown_ofRemarks? lawful rooted, if_pos here]
          rfl
        | none =>
          rw [Publication.lastShown_of uri named, if_pos here]
          rfl
      · rw [if_neg here]
        split
        next =>
          cases d.text path with
          | some source =>
            simp only [Publication.lastShown_ofRemarks? lawful rooted, if_neg here, Option.none_or]
          | none => simp only [Publication.lastShown_of uri named, if_neg here, Option.none_or]
        next => rfl

theorem Task.lastShown_flatMap (lawful : Addresses.Lawful U) (recognized : c.recognizes p) (absolute : p.isAbsolute)
    (tasks : List (Task U)) :
    Publication.lastShown p (tasks.flatMap (publications c d)) =
      (((tasks.filterMap request?).foldl (View.step p c d) {}).shown).map
        (·.map Warning.diagnostic) := by
  induction tasks using List.reverseRecOn with
  | nil => rfl
  | append_singleton tasks t ih =>
    have last : [t].filterMap request? = t.request?.toList := by
      cases found : t.request? <;> simp [found]
    rw [List.flatMap_append, Publication.lastShown_append, ih, List.filterMap_append,
      List.foldl_append, last, ← lastShown_publications lawful recognized absolute]
    simp

end

end TestExplorer.Server
