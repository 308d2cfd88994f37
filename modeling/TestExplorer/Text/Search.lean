set_option autoImplicit false

namespace TestExplorer.Text

def cut? (piece : List Char) : List Char → Option (List Char × List Char)
  | [] => if piece.isEmpty then some ([], []) else none
  | c :: rest =>
    if piece.isPrefixOf (c :: rest) then some ([], (c :: rest).drop piece.length)
    else (cut? piece rest).map fun (before, after) => (c :: before, after)

def Occurs (piece text : List Char) : Prop :=
  ∃ before after, text = before ++ piece ++ after

def occurs (piece text : List Char) : Bool :=
  (cut? piece text).isSome

theorem cut?_parts {piece text before after : List Char}
    (h : cut? piece text = some (before, after)) : text = before ++ piece ++ after := by
  induction text generalizing before with
  | nil =>
    unfold cut? at h
    split at h
    next empty => simp_all
    next => contradiction
  | cons c rest ih =>
    unfold cut? at h
    split at h
    next found =>
      obtain ⟨tail, split⟩ := List.isPrefixOf_iff_prefix.1 found
      simp only [Option.some.injEq, Prod.mk.injEq] at h
      obtain ⟨rfl, rfl⟩ := h
      rw [← split]
      simp
    next =>
      obtain ⟨⟨inner, tail⟩, found, same⟩ := Option.map_eq_some_iff.1 h
      simp only [Prod.mk.injEq] at same
      obtain ⟨rfl, rfl⟩ := same
      simp [ih found]

theorem occurs_iff (piece text : List Char) : occurs piece text = true ↔ Occurs piece text := by
  constructor
  · intro h
    obtain ⟨⟨before, after⟩, found⟩ := Option.isSome_iff_exists.1 h
    exact ⟨before, after, cut?_parts found⟩
  · rintro ⟨before, after, rfl⟩
    induction before with
    | nil =>
      cases piece with
      | nil => cases after <;> simp [occurs, cut?]
      | cons p ps => simp [occurs, cut?]
    | cons b bs ih =>
      unfold occurs at ih ⊢
      simp only [List.cons_append] at ih ⊢
      unfold cut?
      split
      · rfl
      · simpa using ih

instance (piece text : List Char) : Decidable (Occurs piece text) :=
  decidable_of_iff _ (occurs_iff piece text)

theorem cut?_length_le {piece text before after : List Char}
    (parted : cut? piece text = some (before, after)) {earlier later : List Char}
    (stands : text = earlier ++ piece ++ later) : before.length ≤ earlier.length := by
  induction text generalizing before earlier with
  | nil =>
    have none : before = [] := by
      have parts := cut?_parts parted
      simp_all
    simp [none]
  | cons c rest ih =>
    unfold cut? at parted
    split at parted
    next =>
      obtain ⟨rfl, -⟩ := Prod.mk.inj (Option.some.inj parted)
      exact Nat.zero_le _
    next absent =>
      obtain ⟨⟨inner, tail⟩, found, same⟩ := Option.map_eq_some_iff.1 parted
      obtain ⟨rfl, rfl⟩ := Prod.mk.inj same
      cases earlier with
      | nil =>
        refine absurd (List.isPrefixOf_iff_prefix.2 ⟨later, ?_⟩) absent
        simpa using stands.symm
      | cons d earlier =>
        rw [List.cons_append, List.cons_append, List.cons.injEq] at stands
        exact Nat.succ_le_succ (ih found stands.2)

theorem cut?_eq_some_iff {piece text before after : List Char} :
    cut? piece text = some (before, after) ↔
      text = before ++ piece ++ after ∧ ∀ earlier later, text = earlier ++ piece ++ later →
        before.length ≤ earlier.length := by
  constructor
  · intro parted
    exact ⟨cut?_parts parted, fun earlier later stands => cut?_length_le parted stands⟩
  · rintro ⟨parts, first⟩
    have found : (cut? piece text).isSome := (occurs_iff piece text).2 ⟨before, after, parts⟩
    obtain ⟨⟨before', after'⟩, parted⟩ := Option.isSome_iff_exists.1 found
    have parts' := cut?_parts parted
    have same : before.length = before'.length :=
      Nat.le_antisymm (first before' after' parts') (cut?_length_le parted parts)
    rw [parts, List.append_assoc, List.append_assoc] at parts'
    obtain ⟨rfl, rest⟩ := List.append_inj parts' same
    rw [parted, List.append_cancel_left rest]

theorem cut?_of_head_not_mem {p : Char} {ps before : List Char} (absent : p ∉ before)
    (after : List Char) : cut? (p :: ps) (before ++ p :: ps ++ after) = some (before, after) := by
  induction before with
  | nil => simp [cut?]
  | cons b bs ih =>
    have other : p ≠ b := fun same => absent (same ▸ List.mem_cons_self)
    have later := ih fun member => absent (List.mem_cons_of_mem b member)
    simp only [List.append_assoc, List.cons_append] at later ⊢
    simp [cut?, other, later]

theorem occurs_iff_isInfix (piece text : List Char) : Occurs piece text ↔ piece <:+: text := by
  constructor <;> rintro ⟨before, after, parts⟩ <;> exact ⟨before, after, parts.symm⟩

-- A piece cannot start in a text that its first character is not in.
theorem Occurs.of_append {p : Char} {ps before text : List Char} (absent : p ∉ before)
    (found : Occurs (p :: ps) (before ++ text)) : Occurs (p :: ps) text := by
  induction before with
  | nil => exact found
  | cons b bs ih =>
    rw [occurs_iff_isInfix, List.cons_append, List.infix_cons_iff] at found
    rcases found with first | later
    · have same : p = b := (List.cons_prefix_cons.1 first).1
      exact absurd (same ▸ List.mem_cons_self) absent
    · exact ih (fun member => absent (List.mem_cons_of_mem b member))
        ((occurs_iff_isInfix _ _).2 later)

theorem prefix_of_prefix_append_cons {piece a b : List Char} {mark : Char} (absent : mark ∉ piece)
    (opens : piece <+: a ++ mark :: b) : piece <+: a := by
  by_cases short : piece.length ≤ a.length
  case pos => exact List.prefix_of_prefix_length_le opens (List.prefix_append a _) short
  case neg =>
    have longer : a ++ [mark] <+: piece := by
      have whole : a ++ [mark] <+: a ++ mark :: b := ⟨b, by simp⟩
      apply List.prefix_of_prefix_length_le whole opens
      simpa [Nat.succ_le_iff] using short
    exact absurd (longer.subset (by simp)) absent

theorem prefix_append_singleton_iff {piece : List Char} {mark : Char} (absent : mark ∉ piece)
    (text : List Char) : piece <+: text ++ [mark] ↔ piece <+: text :=
  ⟨prefix_of_prefix_append_cons absent, (·.trans (List.prefix_append text [mark]))⟩

theorem cut?_append_singleton {piece : List Char} {mark : Char} (written : piece ≠ [])
    (absent : mark ∉ piece) (text : List Char) :
    cut? piece (text ++ [mark]) =
      (cut? piece text).map fun (before, after) => (before, after ++ [mark]) := by
  have opens (text : List Char) :
      piece.isPrefixOf (text ++ [mark]) = piece.isPrefixOf text := by
    rw [Bool.eq_iff_iff, List.isPrefixOf_iff_prefix, List.isPrefixOf_iff_prefix]
    exact prefix_append_singleton_iff absent text
  induction text with
  | nil =>
    have apart : piece.isPrefixOf [mark] = false := by
      have := opens []
      cases piece <;> simp_all
    cases piece <;> simp_all [cut?]
  | cons c rest ih =>
    have first := opens (c :: rest)
    rw [List.cons_append] at first
    rw [List.cons_append, cut?, first, cut?, ih]
    split
    next found =>
      have short := (List.isPrefixOf_iff_prefix.1 found).length_le
      rw [← List.cons_append, List.drop_append_of_le_length short]
      rfl
    next => rw [Option.map_map, Option.map_map]; rfl

theorem occurs_append_singleton_iff {piece : List Char} {mark : Char} (written : piece ≠ [])
    (absent : mark ∉ piece) (text : List Char) :
    Occurs piece (text ++ [mark]) ↔ Occurs piece text := by
  rw [← occurs_iff, occurs, cut?_append_singleton written absent, Option.isSome_map, ← occurs,
    occurs_iff]

-- Nor can it go on across a character that it does not have.
theorem Occurs.of_append_cons {piece a b : List Char} {mark : Char} (absent : mark ∉ piece)
    (found : Occurs piece (a ++ mark :: b)) : Occurs piece a ∨ Occurs piece b := by
  simp only [occurs_iff_isInfix] at found ⊢
  induction a with
  | nil =>
    rcases List.infix_cons_iff.1 found with first | later
    · exact .inl (prefix_of_prefix_append_cons (a := []) absent first).isInfix
    · exact .inr later
  | cons c a ih =>
    rcases List.infix_cons_iff.1 found with first | later
    · exact .inl (prefix_of_prefix_append_cons (a := c :: a) absent first).isInfix
    · exact (ih later).imp_left (·.trans (List.suffix_cons c a).isInfix)

end TestExplorer.Text
