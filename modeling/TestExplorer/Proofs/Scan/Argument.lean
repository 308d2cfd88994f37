import Mathlib.Data.List.TakeWhile
import TestExplorer.Proofs.Scan.Rendering

set_option autoImplicit false

namespace TestExplorer.Text

structure Trimmed (text left : List Char) : Prop where
  parts : ∃ before after, text = before ++ left ++ after ∧
    (∀ c ∈ before, isBlank c) ∧ ∀ c ∈ after, isBlank c
  first : ∀ c ∈ left.head?, isBlank c = false
  last : ∀ c ∈ left.getLast?, isBlank c = false

theorem trimEnd_parts (text : List Char) :
    ∃ after, text = trimEnd text ++ after ∧ ∀ c ∈ after, isBlank c := by
  refine ⟨(text.reverse.takeWhile isBlank).reverse, ?_, fun c member => ?_⟩
  · rw [trimEnd, ← List.reverse_append, List.takeWhile_append_dropWhile, List.reverse_reverse]
  · exact List.mem_takeWhile_imp (List.mem_reverse.1 member)

theorem trimmed_trim (text : List Char) : Trimmed text (trim text) := by
  obtain ⟨after, ending, blank⟩ := trimEnd_parts (trimStart text)
  constructor
  case parts =>
    refine ⟨text.takeWhile isBlank, after, ?_, fun c => List.mem_takeWhile_imp, blank⟩
    rw [trim, List.append_assoc, ← ending, trimStart, List.takeWhile_append_dropWhile]
  case first =>
    intro c opens
    apply head?_trimStart text c
    rw [ending, List.head?_append, Option.or_eq_some_iff]
    exact .inl opens
  case last => exact getLast?_trimEnd (trimStart text)

theorem Trimmed.eq_trim {text left : List Char} (trimmed : Trimmed text left) :
    left = trim text := by
  obtain ⟨before, after, rfl, opening, ending⟩ := trimmed.parts
  rw [List.append_assoc, trim, trimStart_append opening]
  cases left with
  | nil =>
    have blank : trimStart after = [] := List.dropWhile_eq_nil_iff.2 ending
    rw [List.nil_append, blank]
    rfl
  | cons c rest =>
    have opens : ∀ d ∈ (c :: rest ++ after).head?, isBlank d = false := trimmed.first
    rw [trimStart_eq_self opens, trimEnd_append _ ending, trimEnd_eq_self trimmed.last]

theorem trim_append (text : List Char) {blanks : List Char} (blank : ∀ c ∈ blanks, isBlank c) :
    trim (text ++ blanks) = trim text := by
  have trimmed : Trimmed (text ++ blanks) (trim text) := by
    obtain ⟨⟨before, after, parts, opening, ending⟩, first, last⟩ := trimmed_trim text
    have around : text ++ blanks = before ++ trim text ++ (after ++ blanks) := by
      rw [← List.append_assoc, ← parts]
    exact ⟨⟨before, after ++ blanks, around, opening,
      List.forall_mem_append.2 ⟨ending, blank⟩⟩, first, last⟩
  exact trimmed.eq_trim.symm

end TestExplorer.Text

namespace TestExplorer

namespace Marker

/-- The inside of a segment in `quote`s. A backslash takes the next character along. -/
inductive Quoted (quote : Char) : List Char → Prop
  | nil : Quoted quote []
  | plain {c : Char} {rest : List Char} :
      c ≠ quote → c ≠ '\\' → Quoted quote rest → Quoted quote (c :: rest)
  | escaped (c : Char) {rest : List Char} : Quoted quote rest → Quoted quote ('\\' :: c :: rest)

/-- What may stand for an argument: characters that neither quote nor terminate, and segments in
quotes. -/
inductive Argument : List Char → Prop
  | nil : Argument []
  | plain {c : Char} {rest : List Char} :
      isQuote c = false → isTerminator c = false → Argument rest → Argument (c :: rest)
  | quoted {quote : Char} {inside rest : List Char} :
      isQuote quote → Quoted quote inside → Argument rest →
        Argument (quote :: (inside ++ quote :: rest))

def Closes (quote : Char) (text : List Char) : Prop :=
  ∃ inside rest, text = inside ++ quote :: rest ∧ Quoted quote inside ∧ Argument rest

theorem isTerminator_of_isQuote {c : Char} (quote : isQuote c) : isTerminator c = false := by
  rcases (by simpa [isQuote, or_assoc] using quote : c = '\'' ∨ c = '"' ∨ c = '\x60') with
    rfl | rfl | rfl <;> rfl

theorem ne_backslash_of_isQuote {c : Char} (quote : isQuote c) : c ≠ '\\' := by
  rintro rfl
  exact absurd quote (by decide)

theorem argument_cons_iff (c : Char) (rest : List Char) :
    Argument (c :: rest) ↔
      if isQuote c then Closes c rest else isTerminator c = false ∧ Argument rest := by
  by_cases quote : isQuote c
  · rw [if_pos quote]
    constructor
    · rintro (_ | ⟨bare, -, -⟩ | ⟨-, inner, formed⟩)
      · simp [quote] at bare
      · exact ⟨_, _, rfl, inner, formed⟩
    · rintro ⟨inside, rest, rfl, inner, formed⟩
      exact .quoted quote inner formed
  · rw [if_neg quote]
    constructor
    · rintro (_ | ⟨-, goesOn, formed⟩ | ⟨opens, -, -⟩)
      · exact ⟨goesOn, formed⟩
      · exact absurd opens quote
    · exact fun ⟨goesOn, formed⟩ => .plain (by simpa using quote) goesOn formed

theorem closes_cons_iff {quote : Char} (opened : isQuote quote) (c : Char) (rest : List Char) :
    Closes quote (c :: rest) ↔
      if c = '\\' then ∃ d tail, rest = d :: tail ∧ Closes quote tail
      else if c = quote then Argument rest else Closes quote rest := by
  have other := ne_backslash_of_isQuote opened
  constructor
  · rintro ⟨inside, tail, parts, inner, formed⟩
    cases inner with
    | nil =>
      obtain ⟨rfl, rfl⟩ := List.cons.inj parts
      rw [if_neg other, if_pos rfl]
      exact formed
    | plain ordinary unescaped inner =>
      obtain ⟨rfl, rfl⟩ := List.cons.inj parts
      rw [if_neg unescaped, if_neg ordinary]
      exact ⟨_, tail, rfl, inner, formed⟩
    | escaped d inner =>
      obtain ⟨rfl, rfl⟩ := List.cons.inj parts
      rw [if_pos rfl]
      exact ⟨d, _, rfl, _, tail, rfl, inner, formed⟩
  · split
    next backslash =>
      rintro ⟨d, _, rfl, inside, tail, rfl, inner, formed⟩
      exact ⟨'\\' :: d :: inside, tail, by simp [backslash], .escaped d inner, formed⟩
    next unescaped =>
      split
      next closing => exact fun formed => ⟨[], rest, by rw [closing]; rfl, .nil, formed⟩
      next ordinary =>
        rintro ⟨inside, tail, rfl, inner, formed⟩
        exact ⟨c :: inside, tail, rfl, .plain ordinary unescaped inner, formed⟩

-- The states follow the grammar: outside quotes again is where an argument is whole.
theorem Quoting.after_eq_plain_iff (text : List Char) :
    (plain.after text = some plain ↔ Argument text) ∧
      ∀ quote, isQuote quote → ((inside quote).after text = some plain ↔ Closes quote text) ∧
        ((escaped quote).after text = some plain ↔
          ∃ c rest, text = c :: rest ∧ Closes quote rest) := by
  induction text with
  | nil =>
    refine ⟨⟨fun _ => .nil, fun _ => rfl⟩, fun quote _ => ⟨?_, ?_⟩⟩
    · simp [after, Closes]
    · simp [after]
  | cons c rest ih =>
    refine ⟨?plain, fun quote opened => ⟨?inside, ?escaped⟩⟩
    case plain =>
      rw [argument_cons_iff]
      by_cases quote : isQuote c
      · simp [after, next, quote, isTerminator_of_isQuote quote, (ih.2 c quote).1]
      · by_cases ends : isTerminator c <;> simp [after, next, quote, ends, ih.1]
    case inside =>
      rw [closes_cons_iff opened]
      by_cases backslash : c = '\\'
      · simp [after, next, backslash, (ih.2 quote opened).2]
      · by_cases closing : c = quote
        · simp [after, next, closing ▸ backslash, closing, ih.1]
        · simp [after, next, backslash, closing, (ih.2 quote opened).1]
    case escaped =>
      simp [after, next, (ih.2 quote opened).1]

theorem argumentText_eq_some_iff {state : Quoting} {text name : List Char} :
    argumentText state text = some name ↔
      ∃ mark rest, text = name ++ mark :: rest ∧ isTerminator mark ∧
        state.after name = some .plain := by
  constructor
  · intro found
    induction text generalizing state name with
    | nil => cases found
    | cons c rest ih =>
      rw [argumentText] at found
      split at found
      next ends =>
        obtain rfl := Option.some.inj found
        exact ⟨c, rest, rfl, ends.2, congrArg some ends.1⟩
      next goesOn =>
        obtain ⟨tail, later, rfl⟩ := Option.map_eq_some_iff.1 found
        obtain ⟨mark, rest, rfl, ends, closed⟩ := ih later
        exact ⟨mark, rest, rfl, ends, by rw [Quoting.after, if_neg goesOn, closed]⟩
  · rintro ⟨mark, rest, rfl, ends, closed⟩
    exact argumentText_of_after closed ends rest

/-- A line parted at the first occurrence of the marker: what is before it, its argument, the character
that ends the argument, and what comes after. -/
structure Reading (m : Marker) (line : List Char) where
  before : List Char
  argument : List Char
  mark : Char
  after : List Char
  parts : line = before ++ m.literal.toList ++ (argument ++ mark :: after)
  first : ∀ earlier later, line = earlier ++ m.literal.toList ++ later →
    before.length ≤ earlier.length
  formed : Argument argument
  ends : isTerminator mark

namespace Reading

variable {m : Marker} {line : List Char}

theorem cut? (r : m.Reading line) :
    Text.cut? m.literal.toList line = some (r.before, r.argument ++ r.mark :: r.after) :=
  Text.cut?_eq_some_iff.2 ⟨r.parts, r.first⟩

theorem argumentText (r : m.Reading line) :
    argumentText .plain (r.argument ++ r.mark :: r.after) = some r.argument :=
  argumentText_of_after ((Quoting.after_eq_plain_iff r.argument).1.2 r.formed) r.ends r.after

theorem unique (r r' : m.Reading line) : r = r' := by
  have same := r.cut?.symm.trans r'.cut?
  obtain ⟨before, rest⟩ := Prod.mk.inj (Option.some.inj same)
  have argument : r.argument = r'.argument := by
    have found := r.argumentText
    rw [rest, r'.argumentText] at found
    exact (Option.some.inj found).symm
  rw [argument] at rest
  obtain ⟨mark, after⟩ := List.cons.inj (List.append_cancel_left rest)
  cases r
  cases r'
  simp_all

theorem argument?_eq (r : m.Reading line) : m.argument? line = some (Text.trim r.argument) := by
  simp [argument?, r.cut?, r.argumentText]

end Reading

theorem exists_reading {m : Marker} {line name : List Char} (found : m.argument? line = some name) :
    ∃ r : m.Reading line, name = Text.trim r.argument := by
  unfold argument? at found
  split at found
  next => cases found
  next before rest parted =>
    obtain ⟨argument, read, rfl⟩ := Option.map_eq_some_iff.1 found
    obtain ⟨parts, first⟩ := Text.cut?_eq_some_iff.1 parted
    obtain ⟨mark, after, rfl, ends, closed⟩ := argumentText_eq_some_iff.1 read
    have formed := (Quoting.after_eq_plain_iff argument).1.1 closed
    exact ⟨{ before, argument, mark, after, parts, first, formed, ends }, rfl⟩

/-- A marker gives a name exactly where the line can be parted by the grammar, which it can in one way
at most. The name is the argument without the blanks around it. -/
theorem extraction_grammar (m : Marker) (line : String) :
    (∀ name, m.extract? line = some name ↔
      ∃ r : m.Reading line.toList, Text.Trimmed r.argument name.toList) ∧
      (m.extract? line = none ↔ IsEmpty (m.Reading line.toList)) ∧
      Subsingleton (m.Reading line.toList) := by
  have value (name : String) : m.extract? line = some name ↔
      ∃ r : m.Reading line.toList, Text.Trimmed r.argument name.toList := by
    rw [extract?, Option.map_eq_some_iff]
    constructor
    · rintro ⟨text, found, rfl⟩
      obtain ⟨r, rfl⟩ := exists_reading found
      exact ⟨r, by simpa using Text.trimmed_trim r.argument⟩
    · rintro ⟨r, trimmed⟩
      exact ⟨_, r.argument?_eq, by rw [← trimmed.eq_trim, String.ofList_toList]⟩
  refine ⟨value, ⟨fun missing => ⟨fun r => ?_⟩, fun empty => ?_⟩, ⟨Reading.unique⟩⟩
  · simp [extract?, r.argument?_eq] at missing
  · by_contra present
    obtain ⟨name, found⟩ := Option.ne_none_iff_exists'.1 present
    exact empty.elim ((value name).1 found).choose

-- The literal stands again inside the quotes, and a quote of another kind does not end them.
example : testCase.extract? "x test( 'test(it\\'s, \"' ,[]) :- a." = some "'test(it\\'s, \"'" := by
  decide

end Marker

end TestExplorer
