import TestExplorer.Controller.Requests
import TestExplorer.Proofs.Tree.Composition

set_option autoImplicit false

namespace TestExplorer

/-- The buffers hold the texts of `text`, one for each document that has one. -/
structure Controller.Buffered (c : Controller) (docs : Path → Prop)
    (buffers : List (Path × String)) (text : Path → Option String) : Prop where
  distinct : (buffers.map (·.1)).Nodup
  within : ∀ p ∈ buffers.map (·.1), docs p ∧ c.recognizes p
  lookup : ∀ p, buffers.lookup p = text p

theorem lookup_cons_of (p known : Path) (source : String) (rest : List (Path × String)) :
    ((known, source) :: rest).lookup p = if p = known then some source else rest.lookup p := by
  by_cases here : p = known
  · simp [here]
  · simp [List.lookup_cons, beq_false_of_ne here, here]

namespace Controller

variable {c : Controller} {docs : Path → Prop} (documents : Documents docs)
  {buffers : List (Path × String)} {text : Path → Option String}

theorem buffered_empty (c : Controller) (docs : Path → Prop) :
    c.Buffered docs [] fun _ => none := by
  constructor <;> simp

theorem Buffered.congr {text' : Path → Option String} (buffered : c.Buffered docs buffers text)
    (same : ∀ p, text p = text' p) : c.Buffered docs buffers text' := by
  rwa [← funext same]

include documents

theorem keys_withBuffer {path : Path} (doc : docs path) (within : ∀ p ∈ buffers.map (·.1), docs p)
    (source : String) :
    (Engine.withBuffer path source buffers).map (·.1) =
      if path ∈ buffers.map (·.1) then buffers.map (·.1) else buffers.map (·.1) ++ [path] := by
  induction buffers with
  | nil => rfl
  | cons buffer rest ih =>
    obtain ⟨known, old⟩ := buffer
    have same : known.Same path ↔ known = path :=
      documents.same_iff (within known List.mem_cons_self) doc
    have later := ih fun p member => within p (List.mem_cons_of_mem _ member)
    by_cases here : known = path
    · simp [Engine.withBuffer, ← here, show known.Same known from rfl]
    · have other : ¬ path = known := fun found => here found.symm
      simp only [Engine.withBuffer, same, here, if_false, List.map_cons, later, List.mem_cons,
        other, false_or]
      split <;> rfl

theorem lookup_withBuffer {path : Path} (doc : docs path) (within : ∀ p ∈ buffers.map (·.1), docs p)
    (source : String) (p : Path) :
    (Engine.withBuffer path source buffers).lookup p =
      Function.update (buffers.lookup ·) path (some source) p := by
  induction buffers with
  | nil => by_cases here : p = path <;> simp [Engine.withBuffer, lookup_cons_of, here]
  | cons buffer rest ih =>
    obtain ⟨known, old⟩ := buffer
    have same : known.Same path ↔ known = path :=
      documents.same_iff (within known List.mem_cons_self) doc
    have later := ih fun p member => within p (List.mem_cons_of_mem _ member)
    by_cases here : known = path
    · by_cases this : p = path <;>
        simp [Engine.withBuffer, show path.Same path from rfl, here, lookup_cons_of, this]
    · by_cases this : p = path
      · have other : ¬ path = known := fun found => here found.symm
        simp [Engine.withBuffer, same, here, lookup_cons_of, this, other] at later ⊢
        exact later
      · simp [Engine.withBuffer, same, here, lookup_cons_of, this] at later ⊢
        rw [later]

theorem Buffered.withBuffer (buffered : c.Buffered docs buffers text) {path : Path}
    (doc : docs path) (recognized : c.recognizes path) (source : String) :
    c.Buffered docs (Engine.withBuffer path source buffers)
      (Function.update text path (some source)) := by
  have within (p : Path) (member : p ∈ buffers.map (·.1)) := (buffered.within p member).1
  have keys := keys_withBuffer documents doc within source
  constructor
  case distinct =>
    rw [keys]
    split
    next => exact buffered.distinct
    next fresh =>
      rw [List.nodup_append_comm]
      exact List.nodup_cons.2 ⟨fresh, buffered.distinct⟩
  case within =>
    intro p member
    by_cases here : p = path
    · exact here ▸ ⟨doc, recognized⟩
    · rw [keys] at member
      split at member
      next => exact buffered.within p member
      next => exact buffered.within p (by simpa [here] using member)
  case lookup =>
    intro p
    rw [lookup_withBuffer documents doc within, funext buffered.lookup]

theorem lookup_withoutBuffer {path : Path} (doc : docs path)
    (within : ∀ p ∈ buffers.map (·.1), docs p) (p : Path) :
    (Engine.withoutBuffer path buffers).lookup p =
      Function.update (buffers.lookup ·) path none p := by
  induction buffers with
  | nil => by_cases here : p = path <;> simp [Engine.withoutBuffer, here]
  | cons buffer rest ih =>
    obtain ⟨known, old⟩ := buffer
    have same : known.Same path ↔ known = path :=
      documents.same_iff (within known List.mem_cons_self) doc
    have later := ih fun p member => within p (List.mem_cons_of_mem _ member)
    by_cases here : known = path
    · have dropped : Engine.withoutBuffer path ((known, old) :: rest) =
          Engine.withoutBuffer path rest := by simp [Engine.withoutBuffer, same.2 here]
      rw [dropped, later]
      by_cases this : p = path <;> simp [lookup_cons_of, here, this]
    · have stays : Engine.withoutBuffer path ((known, old) :: rest) =
          (known, old) :: Engine.withoutBuffer path rest := by
        simp [Engine.withoutBuffer, same, here]
      have other : ¬ path = known := fun found => here found.symm
      rw [stays, lookup_cons_of, later]
      by_cases this : p = path <;> simp [lookup_cons_of, other, this]

theorem Buffered.withoutBuffer (buffered : c.Buffered docs buffers text) {path : Path}
    (doc : docs path) :
    c.Buffered docs (Engine.withoutBuffer path buffers) (Function.update text path none) := by
  have kept : (Engine.withoutBuffer path buffers).Sublist buffers := List.filter_sublist
  constructor
  case distinct => exact buffered.distinct.sublist (kept.map _)
  case within => exact fun p member => buffered.within p ((kept.map _).subset member)
  case lookup =>
    intro p
    rw [lookup_withoutBuffer documents doc fun p member => (buffered.within p member).1,
      funext buffered.lookup]

end Controller

end TestExplorer
