import Mathlib.Logic.Function.Basic
import TestExplorer.Proofs.Scan.Argument
import TestExplorer.Proofs.Settings.Layers

set_option autoImplicit false

namespace TestExplorer

open Text (isBlank trim trimStart trimEnd)

namespace Text

theorem trimEnd_append_of_mem (text : List Char) {tail : List Char} {c : Char} (inside : c ∈ tail)
    (plain : isBlank c = false) : trimEnd (text ++ tail) = text ++ trimEnd tail := by
  have left : tail.reverse.dropWhile isBlank ≠ [] := by
    intro none
    have blank := List.dropWhile_eq_nil_iff.1 none c (List.mem_reverse.2 inside)
    exact absurd (plain.symm.trans blank) Bool.false_ne_true
  simp [trimEnd, List.dropWhile_append, left]

end Text

namespace Config

/-- An extension as it should stand: a text without a comma that no dot or blank opens and no blank
ends. -/
structure NormalEntry (entry : List Char) : Prop where
  nonempty : entry ≠ []
  whole : ',' ∉ entry
  bare : entry.head? ≠ some '.'
  first : ∀ c ∈ entry.head?, isBlank c = false
  last : ∀ c ∈ entry.getLast?, isBlank c = false

/-- The field opens with dots, there are blanks right behind them, and more comes later. -/
def BlankBehindDots (field : List Char) : Prop :=
  ∃ before dots blank rest, field = before ++ dots ++ blank :: rest ∧
    (∀ c ∈ before, isBlank c) ∧ dots ≠ [] ∧ (∀ c ∈ dots, c = '.') ∧ isBlank blank ∧
    ∃ c ∈ rest, isBlank c = false

def entriesOf (fields : List (List Char)) : List (List Char) :=
  (fields.map extensionOf).filter (! ·.isEmpty)

/-! ## Fields -/

theorem splitCommas_eq (text : List Char) : splitCommas text = text.splitOn ',' := by
  induction text with
  | nil => rfl
  | cons c rest ih =>
    rw [splitCommas, ih, List.splitOn_cons_eq_if_modifyHead]
    by_cases comma : c = ','
    case pos => simp [comma]
    case neg =>
      cases fields : rest.splitOn ',' with
      | nil => exact absurd fields (List.splitOn_ne_nil _ _)
      | cons field more => simp [comma]

theorem not_mem_of_splitCommas (text : List Char) : ∀ field ∈ splitCommas text, ',' ∉ field := by
  induction text with
  | nil => simp [splitCommas]
  | cons c rest ih =>
    rw [splitCommas]
    split
    next => simpa using ih
    next other =>
      split
      next => simpa using Ne.symm other
      next field more same =>
        rw [same] at ih
        simpa [Ne.symm other] using ih

theorem entriesOf_joined {entries : List (List Char)} (whole : ∀ entry ∈ entries, ',' ∉ entry) :
    entriesOf (splitCommas ([','].intercalate entries)) = entriesOf entries := by
  cases entries with
  | nil => rfl
  | cons entry more =>
    rw [splitCommas_eq, List.splitOn_intercalate ',' whole (List.cons_ne_nil entry more)]

/-! ## Entries -/

theorem extensionOf_parts (field : List Char) :
    ∃ dots, trim field = dots ++ extensionOf field ∧ ∀ c ∈ dots, c = '.' := by
  refine ⟨(trim field).takeWhile (· == '.'), ?_, ?_⟩
  · exact (List.takeWhile_append_dropWhile).symm
  · intro c member
    simpa using List.mem_takeWhile_imp member

theorem extensionOf_sublist (field : List Char) : (extensionOf field).Sublist field := by
  obtain ⟨before, after, parts, -, -⟩ := (Text.trimmed_trim field).parts
  have inside : (trim field).Sublist field := by
    conv => rhs; rw [parts]
    exact (List.sublist_append_right before _).trans (List.sublist_append_left _ after)
  exact (List.dropWhile_sublist _).trans inside

theorem head?_extensionOf (field : List Char) : (extensionOf field).head? ≠ some '.' := by
  intro opens
  have stopped := List.head?_dropWhile_not (· == '.') (trim field)
  rw [← extensionOf, opens] at stopped
  simp at stopped

theorem getLast?_extensionOf (field : List Char) :
    ∀ c ∈ (extensionOf field).getLast?, isBlank c = false := by
  intro c ends
  obtain ⟨dots, parts, -⟩ := extensionOf_parts field
  apply (Text.trimmed_trim field).last c
  rw [parts, List.getLast?_append]
  exact Option.or_eq_some_iff.2 (.inl ends)

theorem extensionOf_eq_self {entry : List Char} (normal : NormalEntry entry) :
    extensionOf entry = entry := by
  have trimmed : trim entry = entry := by
    rw [trim, Text.trimStart_eq_self normal.first, Text.trimEnd_eq_self normal.last]
  rw [extensionOf, trimmed]
  apply List.dropWhile_eq_self_iff.2
  intro some dot
  apply normal.bare
  rw [List.head?_eq_some_head (List.ne_nil_of_length_pos some)]
  simpa [List.head_eq_getElem] using dot

theorem first_of_extensionOf_eq_self {entry : List Char} (same : extensionOf entry = entry) :
    ∀ c ∈ entry.head?, isBlank c = false := by
  obtain ⟨dots, parts, -⟩ := extensionOf_parts entry
  have trimmed := Text.trimmed_trim entry
  obtain ⟨before, after, around, -, -⟩ := trimmed.parts
  have length := congrArg List.length around
  rw [parts, same] at length
  simp only [List.length_append] at length
  have none : dots = [] := List.length_eq_zero_iff.1 (by omega)
  rw [parts, same, none] at trimmed
  exact trimmed.first

theorem extensionOf_blankBehindDots {before dots rest : List Char} {blank c : Char}
    (opening : ∀ c ∈ before, isBlank c) (opened : dots ≠ []) (dotted : ∀ c ∈ dots, c = '.')
    (gap : isBlank blank) (inside : c ∈ rest) (plain : isBlank c = false) :
    extensionOf (before ++ dots ++ blank :: rest) = blank :: trimEnd rest := by
  have start : trimStart (before ++ dots ++ blank :: rest) = dots ++ blank :: rest := by
    rw [List.append_assoc, Text.trimStart_append opening]
    apply Text.trimStart_eq_self
    obtain ⟨dot, more, rfl⟩ := List.exists_cons_of_ne_nil opened
    obtain rfl : dot = '.' := dotted dot List.mem_cons_self
    simp only [List.cons_append, List.head?_cons, Option.mem_def, Option.some.injEq, forall_eq']
    decide
  have cut : dots ++ blank :: rest = dots ++ [blank] ++ rest := by simp
  have other : (blank == '.') = false := by
    rw [beq_eq_false_iff_ne]
    rintro rfl
    exact absurd gap (by decide)
  rw [extensionOf, trim, start, cut, Text.trimEnd_append_of_mem _ inside plain, List.append_assoc,
    List.dropWhile_append_of_pos (by simpa using dotted), List.singleton_append,
    List.dropWhile_cons_of_neg (by simp [other])]

theorem blankBehindDots_iff (field : List Char) :
    BlankBehindDots field ↔ ∃ c ∈ (extensionOf field).head?, isBlank c := by
  constructor
  case mp =>
    rintro ⟨before, dots, blank, rest, rfl, opening, opened, dotted, gap, c, inside, plain⟩
    rw [extensionOf_blankBehindDots opening opened dotted gap inside plain]
    exact ⟨blank, rfl, gap⟩
  case mpr =>
    rintro ⟨blank, opens, gap⟩
    obtain ⟨dots, parts, dotted⟩ := extensionOf_parts field
    obtain ⟨rest, entry⟩ := List.head?_eq_some_iff.1 opens
    have trimmed := Text.trimmed_trim field
    obtain ⟨before, after, around, opening, -⟩ := trimmed.parts
    have ends := getLast?_extensionOf field
    rw [parts, entry] at around trimmed
    rw [entry] at ends
    refine ⟨before, dots, blank, rest ++ after, by simpa using around, opening, ?_, dotted, gap, ?_⟩
    · rintro rfl
      exact absurd gap (by simp [trimmed.first blank rfl])
    · cases last : rest.getLast? with
      | none =>
        obtain rfl := List.getLast?_eq_none_iff.1 last
        exact absurd gap (by simp [ends blank rfl])
      | some c =>
        have behind : c ∈ (blank :: rest).getLast? := by simp [List.getLast?_cons, last]
        exact ⟨c, List.mem_append_left _ (List.mem_of_getLast? last), ends c behind⟩

theorem mem_entriesOf {fields : List (List Char)} {entry : List Char} :
    entry ∈ entriesOf fields ↔ (∃ field ∈ fields, extensionOf field = entry) ∧ entry ≠ [] := by
  simp [entriesOf]

theorem normalEntry_iff {fields : List (List Char)} (whole : ∀ field ∈ fields, ',' ∉ field)
    {entry : List Char} (member : entry ∈ entriesOf fields) :
    NormalEntry entry ↔ ∀ c ∈ entry.head?, isBlank c = false := by
  obtain ⟨⟨field, inside, rfl⟩, nonempty⟩ := mem_entriesOf.1 member
  constructor
  case mp => exact fun normal => normal.first
  case mpr =>
    intro first
    exact ⟨nonempty, fun comma => whole field inside ((extensionOf_sublist field).subset comma),
      head?_extensionOf field, first, getLast?_extensionOf field⟩

theorem entriesOf_normal_iff {fields : List (List Char)} (whole : ∀ field ∈ fields, ',' ∉ field) :
    (∀ entry ∈ entriesOf fields, NormalEntry entry) ↔
      ∀ field ∈ fields, ¬ BlankBehindDots field := by
  constructor
  case mp =>
    intro normal field inside exposed
    obtain ⟨c, opens, blank⟩ := (blankBehindDots_iff field).1 exposed
    have nonempty : extensionOf field ≠ [] := by
      intro none
      simp [none] at opens
    have entry := normal _ (mem_entriesOf.2 ⟨⟨field, inside, rfl⟩, nonempty⟩)
    exact absurd blank (by simp [entry.first c opens])
  case mpr =>
    intro hidden entry member
    apply (normalEntry_iff whole member).2
    obtain ⟨⟨field, inside, rfl⟩, -⟩ := mem_entriesOf.1 member
    intro c opens
    rw [← Bool.not_eq_true]
    exact fun blank => hidden field inside ((blankBehindDots_iff field).2 ⟨c, opens, blank⟩)

theorem entriesOf_eq_self_iff {fields : List (List Char)} (whole : ∀ field ∈ fields, ',' ∉ field) :
    entriesOf (entriesOf fields) = entriesOf fields ↔
      ∀ entry ∈ entriesOf fields, NormalEntry entry := by
  constructor
  case mp =>
    intro same entry member
    have kept : ((entriesOf fields).map extensionOf).filter (! ·.isEmpty) =
        (entriesOf fields).map extensionOf := by
      apply List.filter_eq_self.2
      apply List.length_filter_eq_length_iff.1
      rw [← entriesOf, same, List.length_map]
    have fixed : (entriesOf fields).map extensionOf = entriesOf fields := kept.symm.trans same
    apply (normalEntry_iff whole member).2
    apply first_of_extensionOf_eq_self
    rw [← List.map_id (entriesOf fields), List.map_map] at fixed
    exact List.map_inj_left.1 fixed entry member
  case mpr =>
    intro normal
    have fixed : (entriesOf fields).map extensionOf = entriesOf fields := by
      conv => rhs; rw [← List.map_id (entriesOf fields)]
      exact List.map_congr_left fun entry member => extensionOf_eq_self (normal entry member)
    rw [entriesOf, fixed, List.filter_eq_self]
    exact fun entry member => by simpa using (mem_entriesOf.1 member).2

/-! ## The variable -/

theorem extensionsOf_eq (value : String) :
    extensionsOf value = (entriesOf (splitCommas value.toList)).map String.ofList := rfl

theorem mem_extensionsOf {value entry : String} :
    entry ∈ extensionsOf value ↔ entry.toList ∈ entriesOf (splitCommas value.toList) := by
  rw [extensionsOf_eq, List.mem_map]
  constructor
  case mp =>
    rintro ⟨text, member, rfl⟩
    rwa [String.toList_ofList]
  case mpr => exact fun member => ⟨entry.toList, member, String.ofList_toList⟩

theorem extensionsOf_joined (value : String) :
    extensionsOf (",".intercalate (extensionsOf value)) =
      (entriesOf (entriesOf (splitCommas value.toList))).map String.ofList := by
  have whole : ∀ entry ∈ entriesOf (splitCommas value.toList), ',' ∉ entry := by
    intro entry member
    obtain ⟨⟨field, inside, rfl⟩, -⟩ := mem_entriesOf.1 member
    have kept := (extensionOf_sublist field).subset
    exact fun comma => not_mem_of_splitCommas _ field inside (kept comma)
  have texts : (extensionsOf value).map String.toList = entriesOf (splitCommas value.toList) := by
    simp [extensionsOf_eq, Function.comp_def]
  have joined : (",".intercalate (extensionsOf value)).toList =
      [','].intercalate (entriesOf (splitCommas value.toList)) := by
    rw [String.toList_intercalate, texts]
    rfl
  rw [extensionsOf_eq, joined, entriesOf_joined whole]

theorem extensions_override (c : Config) (env : Environment) (value : String) :
    (c.override (Function.update env .extensions (some value))).1.discovery.extensions =
      extensionsOf value := by
  rw [override_eq]
  simp [Layer.settle, Layer.onto, Layer.ofEnvironment, Layer.discovery]

/-- No entry that the variable sets is empty, has a comma, opens with a dot or ends with a blank.
None opens with a blank either, and the entries are read back from what they are joined to, just
where no field of the value has blanks behind the dots that it opens with. -/
theorem override_normal (c : Config) (env : Environment) (value : String) :
    let given (value : String) : Environment := Function.update env .extensions (some value)
    let once := (c.override (given value)).1
    let entries := once.discovery.extensions
    let twice := (once.override (given (",".intercalate entries))).1
    (∀ entry ∈ entries, entry ≠ "" ∧ ',' ∉ entry.toList ∧ entry.toList.head? ≠ some '.' ∧
        ∀ c ∈ entry.toList.getLast?, isBlank c = false) ∧
      ((∀ entry ∈ entries, NormalEntry entry.toList) ↔
        ∀ field ∈ splitCommas value.toList, ¬ BlankBehindDots field) ∧
      (twice.discovery.extensions = entries ↔
        ∀ field ∈ splitCommas value.toList, ¬ BlankBehindDots field) := by
  intro given once entries twice
  let fields := splitCommas value.toList
  have whole : ∀ field ∈ fields, ',' ∉ field := not_mem_of_splitCommas value.toList
  have first : entries = extensionsOf value := extensions_override c env value
  have second : twice.discovery.extensions = extensionsOf (",".intercalate entries) :=
    extensions_override once env _
  have normal : (∀ entry ∈ entries, NormalEntry entry.toList) ↔
      ∀ entry ∈ entriesOf fields, NormalEntry entry := by
    rw [first, extensionsOf_eq]
    simp [fields]
  refine ⟨?always, ?_, ?_⟩
  case always =>
    intro entry member
    rw [first, mem_extensionsOf] at member
    obtain ⟨⟨field, inside, same⟩, nonempty⟩ := mem_entriesOf.1 member
    have comma : ',' ∉ entry.toList := by
      rw [← same]
      exact fun comma => whole field inside ((extensionOf_sublist field).subset comma)
    exact ⟨by simpa using nonempty, comma, same ▸ head?_extensionOf field,
      same ▸ getLast?_extensionOf field⟩
  · rw [normal, entriesOf_normal_iff whole]
  · have texts : Function.Injective (List.map String.ofList) :=
      List.map_injective_iff.2 fun _ _ same => String.ofList_injective same
    rw [second, first, extensionsOf_joined, extensionsOf_eq, texts.eq_iff,
      entriesOf_eq_self_iff whole, entriesOf_normal_iff whole]

theorem blank_behind_dot_stays :
    let given (value : String) : Environment :=
      Function.update (fun _ => none) .extensions (some value)
    let once := (({} : Config).override (given ". pl")).1
    let twice := (once.override (given (",".intercalate once.discovery.extensions))).1
    once.discovery.extensions = [" pl"] ∧ ¬ NormalEntry " pl".toList ∧
      once.discovery.recognizes (.ofString "/ws/a.pl") = false ∧
      twice.discovery.extensions = ["pl"] := by
  have blank : ¬ NormalEntry " pl".toList := fun normal =>
    absurd (normal.first ' ' rfl) (by decide)
  exact ⟨by decide, blank, by decide, by decide⟩

end Config

end TestExplorer
