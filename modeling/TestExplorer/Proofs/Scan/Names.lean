import TestExplorer.Proofs.Scan.Argument

set_option autoImplicit false

namespace TestExplorer

namespace Marker

namespace Argument

variable {text before after : List Char}

theorem append {a b : List Char} (first : Argument a) (second : Argument b) :
    Argument (a ++ b) := by
  induction first with
  | nil => exact second
  | plain bare goesOn _ ih => exact .plain bare goesOn ih
  | quoted opened inner _ ih => simpa using Argument.quoted opened inner ih

theorem not_isQuote_of_isBlank {c : Char} (blank : Text.isBlank c) : isQuote c = false := by
  by_contra quote
  rw [Bool.not_eq_false] at quote
  rcases (by simpa [isQuote, or_assoc] using quote : c = '\'' ∨ c = '"' ∨ c = '\x60') with
    rfl | rfl | rfl <;> exact absurd blank (by decide)

theorem of_blank_append (blank : ∀ c ∈ before, Text.isBlank c)
    (formed : Argument (before ++ text)) : Argument text := by
  induction before with
  | nil => exact formed
  | cons c before ih =>
    have bare := not_isQuote_of_isBlank (blank c List.mem_cons_self)
    rw [List.cons_append, argument_cons_iff, if_neg (by simp [bare])] at formed
    exact ih (fun d inside => blank d (List.mem_cons_of_mem c inside)) formed.2

theorem of_append_blank (blank : ∀ c ∈ after, Text.isBlank c)
    (formed : Argument (text ++ after)) : Argument text := by
  have unquoted (quote : Char) (opened : isQuote quote) : quote ∉ after := fun inside => by
    simp [not_isQuote_of_isBlank (blank quote inside)] at opened
  generalize whole : text ++ after = written at formed
  induction formed generalizing text with
  | nil => exact (List.append_eq_nil_iff.1 whole).1 ▸ .nil
  | @plain c rest bare goesOn _ ih =>
    cases text with
    | nil => exact .nil
    | cons d text =>
      obtain ⟨rfl, same⟩ := List.cons.inj whole
      exact .plain bare goesOn (ih same)
  | @quoted quote inside rest opened inner _ ih =>
    cases text with
    | nil => exact .nil
    | cons d text =>
      obtain ⟨rfl, same⟩ := List.cons.inj whole
      -- The blanks begin behind the closing quote, as they have no quote of their own.
      rcases List.append_eq_append_iff.1 same with ⟨gap, -, ending⟩ | ⟨gap, rfl, ending⟩
      · exact (unquoted d opened (by simp [ending])).elim
      · cases gap with
        | nil =>
          have same : d :: rest = after := ending
          exact (unquoted d opened (same ▸ List.mem_cons_self)).elim
        | cons e gap =>
          obtain ⟨rfl, left⟩ := List.cons.inj ending
          exact .quoted opened inner (ih left.symm)

theorem trim (formed : Argument text) : Argument (Text.trim text) := by
  obtain ⟨before, after, parts, opening, ending⟩ := (Text.trimmed_trim text).parts
  have whole : Argument (before ++ Text.trim text ++ after) := parts ▸ formed
  exact of_blank_append opening (of_append_blank ending whole)

end Argument

structure IsName (name : String) : Prop where
  formed : Argument name.toList
  trimmed : Text.trim name.toList = name.toList

theorem isName_of_argument? {m : Marker} {line name : List Char}
    (found : m.argument? line = some name) : IsName (String.ofList name) := by
  obtain ⟨r, rfl⟩ := exists_reading found
  have trimmed := Text.trimmed_trim r.argument
  constructor
  case formed => simpa using r.formed.trim
  case trimmed =>
    rw [String.toList_ofList, Text.trim, Text.trimStart_eq_self trimmed.first,
      Text.trimEnd_eq_self trimmed.last]

theorem isName_of_extract? {m : Marker} {line name : String}
    (found : m.extract? line = some name) : IsName name := by
  obtain ⟨text, given, rfl⟩ := Option.map_eq_some_iff.1 found
  exact isName_of_argument? given

theorem isName_of_name? {m : Marker} {line : List Char} {name : String}
    (found : m.name? line = some name) : IsName name := by
  unfold name? at found
  split at found
  next => contradiction
  next c rest given =>
    obtain rfl := Option.some.inj found
    exact isName_of_argument? given
  next => contradiction

theorem argumentText_of_argument {argument : List Char} (formed : Argument argument) {mark : Char}
    (ends : isTerminator mark) (rest : List Char) :
    argumentText .plain (argument ++ mark :: rest) = some argument :=
  argumentText_of_after ((Quoting.after_eq_plain_iff argument).1.2 formed) ends rest

theorem IsName.extract? {name : String} (given : IsName name) (m : Marker) :
    m.extract? (m.literal ++ name ++ ")") = some name := by
  have parted : Text.cut? m.literal.toList (m.literal ++ name ++ ")").toList =
      some ([], name.toList ++ [')']) :=
    Text.cut?_eq_some_iff.2 ⟨by simp, fun _ _ _ => Nat.zero_le _⟩
  have read : argumentText .plain (name.toList ++ [')']) = some name.toList :=
    argumentText_of_argument given.formed rfl []
  rw [Marker.extract?, argument?, parted]
  simp [read, given.trimmed]

end Marker

/-! ## Documents -/

open Marker (IsName)

theorem LineKind.isName_of {text : List Char} {name : String}
    (given : (of text).unit? = some name ∨ (of text).test? = some name) : IsName name := by
  unfold of at given
  split_ifs at given
  · exact Marker.isName_of_name? (by simpa [unit?, test?] using given)
  · simp [unit?, test?] at given
  · exact Marker.isName_of_name? (by simpa [unit?, test?] using given)
  · simp [unit?, test?] at given

theorem kind_of_mem_kindsFrom {line : Nat} {texts : List (List Char)} {row : NumberedKind}
    (inside : row ∈ kindsFrom line texts) : ∃ text, row.1 = LineKind.of text := by
  obtain ⟨-, -, same⟩ := List.mem_zipIdx inside
  exact ⟨_, by rw [same, List.getElem_map]⟩

def UnitMark.Named (u : UnitMark) : Prop :=
  IsName u.name ∧ ∀ x ∈ u.tests, IsName x.name

namespace Document

theorem named_spanBefore {line : Nat} {texts : List (List Char)} :
    ∀ x ∈ (spanBefore (kindsFrom line texts)).filterMap testMark?, IsName x.name := by
  intro x inside
  obtain ⟨row, kept, declared⟩ := List.mem_filterMap.1 inside
  obtain ⟨text, kind⟩ := kind_of_mem_kindsFrom ((List.takeWhile_sublist _).subset kept)
  obtain ⟨name, given, rfl⟩ := Option.map_eq_some_iff.1 declared
  exact LineKind.isName_of (.inr (kind ▸ given))

theorem named_unitsIn (line : Nat) (texts : List (List Char)) :
    ∀ u ∈ unitsIn (kindsFrom line texts), u.Named := by
  induction texts generalizing line with
  | nil => simp [kindsFrom, unitsIn]
  | cons text rest ih =>
    intro u inside
    rw [kindsFrom_cons, unitsIn] at inside
    cases given : (LineKind.of text).unit? with
    | none =>
      rw [given] at inside
      exact ih (line + 1) u inside
    | some name =>
      rw [given] at inside
      rcases List.mem_cons.1 inside with rfl | later
      · exact ⟨LineKind.isName_of (.inl given), named_spanBefore⟩
      · exact ih (line + 1) u later

theorem named_scan (path : Path) (source : String) : ∀ u ∈ (scan path source).units, u.Named := by
  have units : (scan path source).units = unitsIn (kindsFrom 0 (Text.lines source.toList)) :=
    (units_scan path source).trans (unitsOf_items false 0 _)
  rw [units]
  exact named_unitsIn 0 _

end Document

end TestExplorer
