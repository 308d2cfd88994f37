import Mathlib.Data.List.Forall2
import TestExplorer.Text.Lines

set_option autoImplicit false

namespace TestExplorer.Text

def joined (ended : Bool) : List (List Char) → List Char
  | [] => []
  | [last] => if ended then last ++ ['\n'] else last
  | line :: next :: rest => line ++ '\n' :: joined ended (next :: rest)

def ReadAs (line text : List Char) : Prop :=
  text = line ∨ line = text ++ ['\r']

theorem ReadAs.cons {line text : List Char} (read : ReadAs line text) (c : Char) :
    ReadAs (c :: line) (c :: text) := by
  rcases read with rfl | rfl
  · exact .inl rfl
  · exact .inr rfl

def bare (line : List Char) : List Char :=
  if line.getLast? = some '\r' then line.dropLast else line

theorem bare_append_return (line : List Char) : bare (line ++ ['\r']) = line := by
  simp [bare]

theorem bare_eq_self {line : List Char} (last : line.getLast? ≠ some '\r') : bare line = line :=
  if_neg last

theorem bare_cons {line : List Char} (c : Char) (written : line ≠ []) :
    bare (c :: line) = c :: bare line := by
  simp only [bare, List.getLast?_cons_of_ne_nil written, List.dropLast_cons_of_ne_nil written]
  split <;> rfl

theorem readAs_bare (line : List Char) : ReadAs line (bare line) := by
  by_cases last : line.getLast? = some '\r'
  case pos =>
    obtain ⟨init, rfl⟩ := List.getLast?_eq_some_iff.1 last
    exact .inr (by rw [bare_append_return])
  case neg => exact .inl (bare_eq_self last)

theorem lines_append_cons {line : List Char} (one : '\n' ∉ line) (rest : List Char) :
    lines (line ++ '\n' :: rest) = bare line :: lines rest := by
  induction line with
  | nil => rfl
  | cons c line ih =>
    have feed : c ≠ '\n' := fun same => one (same ▸ List.mem_cons_self)
    have later : '\n' ∉ line := fun member => one (List.mem_cons_of_mem c member)
    by_cases only : line = []
    case pos =>
      subst only
      by_cases ending : c = '\r'
      · subst ending
        rfl
      · have last : [c].getLast? ≠ some '\r' := by simpa using ending
        rw [List.cons_append, lines_cons feed fun same => absurd same ending, bare_eq_self last]
        rfl
    case neg =>
      have inner : c = '\r' → (line ++ '\n' :: rest).head? ≠ some '\n' := by
        rintro rfl same
        cases line with
        | nil => contradiction
        | cons d line => exact later (by simp_all)
      rw [List.cons_append, lines_cons feed inner, ih later, bare_cons c only]

theorem lines_eq_self {line : List Char} (one : '\n' ∉ line) (written : line ≠ []) :
    lines line = [line] := by
  induction line with
  | nil => contradiction
  | cons c line ih =>
    have feed : c ≠ '\n' := fun same => one (same ▸ List.mem_cons_self)
    have later : '\n' ∉ line := fun member => one (List.mem_cons_of_mem c member)
    have inner : c = '\r' → line.head? ≠ some '\n' := fun _ same =>
      later (List.mem_of_mem_head? same)
    rw [lines_cons feed inner]
    cases line with
    | nil => rfl
    | cons d line => rw [ih later (by simp)]

-- An empty line at the end that has no line feed is not read.
theorem lines_joined (ended : Bool) {written : List (List Char)}
    (one : ∀ line ∈ written, '\n' ∉ line) :
    ∃ texts, List.Forall₂ ReadAs written texts ∧
      (lines (joined ended written) = texts ∨ lines (joined ended written) ++ [[]] = texts) := by
  induction written with
  | nil => exact ⟨[], .nil, .inl rfl⟩
  | cons line rest ih =>
    have here : '\n' ∉ line := one line List.mem_cons_self
    cases rest with
    | nil =>
      cases ended with
      | true =>
        exact ⟨[bare line], .cons (readAs_bare line) .nil, .inl (lines_append_cons here [])⟩
      | false =>
        refine ⟨[line], .cons (.inl rfl) .nil, ?_⟩
        by_cases empty : line = []
        case pos => subst empty; exact .inr rfl
        case neg => exact .inl (lines_eq_self here empty)
    | cons next rest =>
      obtain ⟨texts, same, found⟩ := ih fun later member =>
        one later (List.mem_cons_of_mem line member)
      refine ⟨bare line :: texts, .cons (readAs_bare line) same, ?_⟩
      rw [joined, lines_append_cons here]
      exact found.imp (congrArg (bare line :: ·)) (congrArg (bare line :: ·))

theorem oneLine_of_lines {text : List Char} : ∀ line ∈ lines text, '\n' ∉ line := by
  fun_induction lines text with
  | case1 => simp
  | case2 rest ih => simpa using ih
  | case3 rest ih => simpa using ih
  | case4 c rest feed _ none ih => simpa using fun same => feed same.symm
  | case5 c rest feed _ line more parts ih =>
    have first : '\n' ≠ c := fun same => feed same.symm
    rw [parts] at ih
    simpa [first] using ih

-- A line that ends in a carriage return and a line feed is read whole, also when it has a carriage
-- return of its own at its end.
theorem lines_append_return {line : List Char} (one : '\n' ∉ line) (rest : List Char) :
    lines (line ++ '\r' :: '\n' :: rest) = line :: lines rest := by
  induction line with
  | nil => rfl
  | cons c line ih =>
    have feed : c ≠ '\n' := fun same => one (same ▸ List.mem_cons_self)
    have later : '\n' ∉ line := fun member => one (List.mem_cons_of_mem c member)
    have inner : c = '\r' → (line ++ '\r' :: '\n' :: rest).head? ≠ some '\n' := by
      rintro - same
      cases line <;> simp_all
    rw [List.cons_append, lines_cons feed inner, ih later]

theorem lines_eq_nil_iff {text : List Char} : lines text = [] ↔ text = [] := by
  fun_cases lines text <;> simp

/-! ## Texts joined by a line feed -/

-- A line feed closes the text before it: the last line there may lose a carriage return, and where
-- no line is open, an empty one comes to be.
theorem lines_append_feed (before after : List Char) :
    ∃ closed, lines (before ++ '\n' :: after) = closed ++ lines after ∧
      (List.Forall₂ ReadAs (lines before) closed ∨ closed = lines before ++ [[]]) := by
  fun_induction lines before with
  | case1 => exact ⟨[[]], rfl, .inr rfl⟩
  | case2 rest ih =>
    obtain ⟨closed, found, read⟩ := ih
    exact ⟨[] :: closed, by simp [lines, found], read.imp (.cons (.inl rfl)) (congrArg ([] :: ·))⟩
  | case3 rest ih =>
    obtain ⟨closed, found, read⟩ := ih
    exact ⟨[] :: closed, by simp [lines, found], read.imp (.cons (.inl rfl)) (congrArg ([] :: ·))⟩
  | case4 c rest feed ending none ih =>
    -- The only character of its line may be the carriage return that the line feed takes.
    obtain rfl := lines_eq_nil_iff.1 none
    have one : '\n' ∉ [c] := by simpa using fun same => feed same.symm
    exact ⟨[bare [c]], lines_append_cons one after, .inl (.cons (readAs_bare [c]) .nil)⟩
  | case5 c rest feed ending line more parts ih =>
    obtain ⟨closed, found, read⟩ := ih
    have inner : c = '\r' → (rest ++ '\n' :: after).head? ≠ some '\n' := by
      rintro rfl opens
      cases rest with
      | nil => simp [lines] at parts
      | cons d rest => exact ending rest rfl (by simpa using opens)
    rw [List.cons_append, lines_cons feed inner, found]
    rw [parts] at read
    rcases read with read | rfl
    · obtain ⟨text, texts, here, later, rfl⟩ := List.forall₂_cons_left_iff.1 read
      exact ⟨(c :: text) :: texts, rfl, .inl (.cons (here.cons c) later)⟩
    · exact ⟨(c :: line) :: more ++ [[]], rfl, .inr rfl⟩

section

variable {β : Type} {read : List Char → Option β} (closed : ∀ line, read (line ++ ['\r']) = read line)
include closed

theorem filterMap_readAs {written texts : List (List Char)}
    (same : List.Forall₂ ReadAs written texts) : texts.filterMap read = written.filterMap read := by
  induction same with
  | nil => rfl
  | @cons line text _ _ here _ ih =>
    have agree : read text = read line := by
      rcases here with rfl | rfl
      · rfl
      · exact (closed text).symm
    rw [List.filterMap_cons, List.filterMap_cons, agree, ih]

-- A reading that passes over empty lines and over carriage returns at the ends of lines finds in the
-- joined text what it finds in the one and then what it finds in the other.
theorem filterMap_lines_append_feed (empty : read [] = none) (before after : List Char) :
    (lines (before ++ '\n' :: after)).filterMap read =
      (lines before).filterMap read ++ (lines after).filterMap read := by
  obtain ⟨texts, found, same⟩ := lines_append_feed before after
  have agree : texts.filterMap read = (lines before).filterMap read := by
    rcases same with same | rfl
    · exact filterMap_readAs closed same
    · simp [empty]
  rw [found, List.filterMap_append, agree]

end

/-! ## The place of a line -/

/-- What follows a line in its text. A carriage return before the line feed is part of the ending. -/
inductive Ends (line : List Char) : List Char → Prop
  | feed (rest : List Char) : line.getLast? ≠ some '\r' → Ends line ('\n' :: rest)
  | returned (rest : List Char) : Ends line ('\r' :: '\n' :: rest)
  | unended : line ≠ [] → Ends line []

/-- The line stands behind `number` line feeds, right after the last of them. -/
def LineAt (text : List Char) (number : Nat) (line : List Char) : Prop :=
  ∃ before after, text = before ++ (line ++ after) ∧ before.count '\n' = number ∧
    (before = [] ∨ before.getLast? = some '\n') ∧ '\n' ∉ line ∧ Ends line after

theorem lines_of_ends {line after : List Char} (one : '\n' ∉ line) (ends : Ends line after) :
    ∃ more, lines (line ++ after) = line :: more := by
  cases ends with
  | feed rest last => exact ⟨lines rest, by rw [lines_append_cons one, bare_eq_self last]⟩
  | returned rest => exact ⟨lines rest, lines_append_return one rest⟩
  | unended written => exact ⟨[], by rw [List.append_nil, lines_eq_self one written]⟩

theorem exists_ends {text line : List Char} {more : List (List Char)}
    (found : lines text = line :: more) : ∃ after, text = line ++ after ∧ Ends line after := by
  by_cases feed : '\n' ∈ text
  case pos =>
    obtain ⟨first, rest, rfl, one⟩ := List.eq_append_cons_of_mem feed
    -- The line feed takes a carriage return right before it, and no more than one.
    by_cases returned : first.getLast? = some '\r'
    case pos =>
      obtain ⟨init, rfl⟩ := List.getLast?_eq_some_iff.1 returned
      have inside : '\n' ∉ init := fun member => one (List.mem_append_left _ member)
      rw [List.append_assoc, List.cons_append, List.nil_append] at found ⊢
      obtain ⟨rfl, -⟩ := List.cons.inj ((lines_append_return inside rest).symm.trans found)
      exact ⟨_, rfl, .returned rest⟩
    case neg =>
      rw [lines_append_cons one, bare_eq_self returned] at found
      obtain ⟨rfl, -⟩ := List.cons.inj found
      exact ⟨_, rfl, .feed rest returned⟩
  case neg =>
    have written : text ≠ [] := by
      rintro rfl
      contradiction
    obtain ⟨rfl, -⟩ := List.cons.inj ((lines_eq_self feed written).symm.trans found)
    exact ⟨[], (List.append_nil _).symm, .unended written⟩

theorem lineAt_of_lines {text line : List Char} {number : Nat}
    (found : (lines text)[number]? = some line) : LineAt text number line := by
  have one : '\n' ∉ line := oneLine_of_lines line (List.mem_of_getElem? found)
  induction number generalizing text with
  | zero =>
    obtain ⟨more, first⟩ := List.head?_eq_some_iff.1 (List.head?_eq_getElem? ▸ found)
    obtain ⟨after, parts, ends⟩ := exists_ends first
    exact ⟨[], after, parts, rfl, .inl rfl, one, ends⟩
  | succ number ih =>
    by_cases feed : '\n' ∈ text
    case pos =>
      obtain ⟨first, rest, rfl, inside⟩ := List.eq_append_cons_of_mem feed
      rw [lines_append_cons inside, List.getElem?_cons_succ] at found
      obtain ⟨before, after, rfl, feeds, opening, -, ends⟩ := ih found
      refine ⟨first ++ '\n' :: before, after, by simp, ?_, .inr ?_, one, ends⟩
      · rw [List.count_append, List.count_eq_zero.2 inside, List.count_cons_self, feeds,
          Nat.zero_add]
      · rcases opening with rfl | last
        · simp
        · simp [List.getLast?_cons, last]
    case neg =>
      by_cases written : text = []
      · simp [written, lines] at found
      · simp [lines_eq_self feed written] at found

theorem getElem?_lines_iff (text : List Char) (number : Nat) (line : List Char) :
    (lines text)[number]? = some line ↔ LineAt text number line := by
  refine ⟨lineAt_of_lines, ?_⟩
  rintro ⟨before, after, rfl, feeds, opening, one, ends⟩
  -- The first line feed of what stands before the line closes the line of number zero.
  induction number generalizing before with
  | zero =>
    have none : '\n' ∉ before := List.count_eq_zero.1 feeds
    have first : before = [] := opening.resolve_right fun last => none (List.mem_of_getLast? last)
    obtain ⟨more, found⟩ := lines_of_ends one ends
    rw [first, List.nil_append, found]
    rfl
  | succ number ih =>
    have feed : '\n' ∈ before := List.count_pos_iff.1 (feeds ▸ Nat.succ_pos number)
    obtain ⟨first, later, rfl, inside⟩ := List.eq_append_cons_of_mem feed
    rw [List.count_append, List.count_eq_zero.2 inside, List.count_cons_self, Nat.zero_add,
      Nat.succ_inj] at feeds
    rw [List.append_assoc, List.cons_append, lines_append_cons inside, List.getElem?_cons_succ]
    refine ih later feeds ?_
    cases later with
    | nil => exact .inl rfl
    | cons c later => exact .inr (by simpa [List.getLast?_append, List.getLast?_cons] using opening)

theorem LineAt.unique {text line line' : List Char} {number : Nat} (stands : LineAt text number line)
    (stands' : LineAt text number line') : line = line' := by
  rw [← getElem?_lines_iff] at stands stands'
  exact Option.some.inj (stands.symm.trans stands')

end TestExplorer.Text
