import TestExplorer.Proofs.Scan.Spans

set_option autoImplicit false

namespace TestExplorer

/-- Of the members that open or close, the last one opens. -/
def OpenAfter {α : Type} (opens closes : α → Prop) (xs : List α) : Prop :=
  ∃ before x after, xs = before ++ x :: after ∧ opens x ∧ ∀ y ∈ after, ¬ opens y ∧ ¬ closes y

section

variable {α : Type} {opens closes : α → Prop}

theorem not_openAfter_nil : ¬ OpenAfter opens closes [] := by
  rintro ⟨before, x, after, parts, -⟩
  simp at parts

theorem openAfter_concat (xs : List α) (x : α) :
    OpenAfter opens closes (xs ++ [x]) ↔ opens x ∨ OpenAfter opens closes xs ∧ ¬ closes x := by
  constructor
  · rintro ⟨before, y, after, parts, opening, quiet⟩
    rcases List.eq_nil_or_concat after with rfl | ⟨after, z, rfl⟩
    · obtain ⟨-, same⟩ := List.append_inj' parts rfl
      obtain rfl := List.singleton_inj.1 same
      exact .inl opening
    · rw [List.concat_eq_append, ← List.cons_append, ← List.append_assoc] at parts
      obtain ⟨rfl, same⟩ := List.append_inj' parts rfl
      obtain rfl := List.singleton_inj.1 same
      rw [List.concat_eq_append] at quiet
      refine .inr ⟨⟨before, y, after, rfl, opening, fun w member => ?_⟩, (quiet x (by simp)).2⟩
      exact quiet w (List.mem_append_left _ member)
  · rintro (opening | ⟨⟨before, y, after, rfl, opening, quiet⟩, goesOn⟩)
    · exact ⟨xs, x, [], rfl, opening, by simp⟩
    · by_cases again : opens x
      · exact ⟨_, x, [], rfl, again, by simp⟩
      · refine ⟨before, y, after ++ [x], by simp, opening, fun w member => ?_⟩
        rcases List.mem_append.1 member with earlier | last
        · exact quiet w earlier
        · exact List.mem_singleton.1 last ▸ ⟨again, goesOn⟩

end

/-! ## What a line shows -/

def OpensUnit (text : List Char) : Prop :=
  Text.Occurs Marker.suiteBegin.literal.toList text ∧
    ∃ name, Marker.suiteBegin.argument? text = some name ∧ name ≠ []

def ClosesUnit (text : List Char) : Prop :=
  Text.Occurs Marker.suiteEnd.literal.toList text ∧
    ¬ Text.Occurs Marker.suiteBegin.literal.toList text

def UnitOpen (above : List (List Char)) : Prop :=
  OpenAfter OpensUnit ClosesUnit above

/-- The item of a marker that takes a name: an event where there is one, else what is wrong. -/
inductive Named (m : Marker) (event : String → Event) (line : Nat) (text : List Char) :
    ScanItem → Prop
  | named {name : List Char} : m.argument? text = some name → name ≠ [] →
      Named m event line text (.event (event (String.ofList name)))
  | empty : m.argument? text = some [] →
      Named m event line text (.warning ⟨.emptyName, m, line, String.ofList text⟩)
  | unended : m.argument? text = none →
      Named m event line text (.warning ⟨.missingArgument, m, line, String.ofList text⟩)

inductive Shows (unitOpen : Prop) (line : Nat) (text : List Char) : ScanItem → Prop
  | opening {item : ScanItem} :
      Text.Occurs Marker.suiteBegin.literal.toList text →
      Named .suiteBegin (.suiteBegin · line) line text item → Shows unitOpen line text item
  | closing :
      ¬ Text.Occurs Marker.suiteBegin.literal.toList text →
      Text.Occurs Marker.suiteEnd.literal.toList text →
      Shows unitOpen line text (.event (.suiteEnd line))
  | test {item : ScanItem} :
      ¬ Text.Occurs Marker.suiteBegin.literal.toList text →
      ¬ Text.Occurs Marker.suiteEnd.literal.toList text →
      Marker.testCase.literal.toList <+: Text.trimStart text → unitOpen →
      Named .testCase (.testCase · line) line text item → Shows unitOpen line text item

def ScanItem.Opens (item : ScanItem) : Prop :=
  ∃ name line, item = .event (.suiteBegin name line)

def ScanItem.Closes (item : ScanItem) : Prop :=
  ∃ line, item = .event (.suiteEnd line)

theorem named_iff (m : Marker) (event : String → Event) (line : Nat) (text : List Char)
    (item : ScanItem) : Named m event line text item ↔
      item = match namedMarker m line text with
        | .ok name => .event (event name)
        | .error w => .warning w := by
  unfold namedMarker
  constructor
  · rintro (⟨found, written⟩ | found | found)
    · simp [found]
    · simp [found]
    · simp [found]
  · rintro rfl
    cases found : m.argument? text with
    | none => exact .unended found
    | some name =>
      cases name with
      | nil => exact .empty found
      | cons c rest => exact .named found (by simp)

theorem shows_iff {inSuite : Bool} {unitOpen : Prop} (known : inSuite = true ↔ unitOpen) (line : Nat)
    (text : List Char) (item : ScanItem) :
    Shows unitOpen line text item ↔ (scanLine inSuite line text).map (·.item) = some item := by
  unfold scanLine
  simp only [Text.occurs_iff, Bool.and_eq_true, List.isPrefixOf_iff_prefix]
  by_cases opens : Text.Occurs Marker.suiteBegin.literal.toList text
  · have shown : Shows unitOpen line text item ↔
        Named .suiteBegin (.suiteBegin · line) line text item := by
      refine ⟨fun shows => ?_, .opening opens⟩
      cases shows with
      | opening _ named => exact named
      | closing absent => exact absurd opens absent
      | test absent => exact absurd opens absent
    rw [shown, named_iff, if_pos opens]
    cases namedMarker .suiteBegin line text <;> simp [@eq_comm _ item]
  rw [if_neg opens]
  by_cases closes : Text.Occurs Marker.suiteEnd.literal.toList text
  · rw [if_pos closes, Option.map_some, Option.some.injEq]
    refine ⟨fun shows => ?_, fun same => same ▸ .closing opens closes⟩
    cases shows with
    | opening present => exact absurd present opens
    | closing => rfl
    | test _ absent => exact absurd closes absent
  rw [if_neg closes]
  have shown : Shows unitOpen line text item ↔
      (unitOpen ∧ Marker.testCase.literal.toList <+: Text.trimStart text) ∧
        Named .testCase (.testCase · line) line text item := by
    refine ⟨fun shows => ?_, fun ⟨⟨inside, begins⟩, named⟩ => .test opens closes begins inside named⟩
    cases shows with
    | opening present => exact absurd present opens
    | closing _ present => exact absurd present closes
    | test _ _ begins inside named => exact ⟨⟨inside, begins⟩, named⟩
  have condition : (inSuite = true ∧ Marker.testCase.literal.toList <+: Text.trimStart text) ↔
      unitOpen ∧ Marker.testCase.literal.toList <+: Text.trimStart text := and_congr_left' known
  rw [shown, named_iff]
  by_cases inside : unitOpen ∧ Marker.testCase.literal.toList <+: Text.trimStart text
  · rw [if_pos (condition.2 inside)]
    cases namedMarker .testCase line text <;> simp [inside, @eq_comm _ item]
  · rw [if_neg (mt condition.1 inside)]
    simp [inside]

/-! ## What is open after a line -/

theorem opensUnit_iff (line : Nat) (text : List Char) :
    OpensUnit text ↔ Text.Occurs Marker.suiteBegin.literal.toList text ∧
      ∃ name, namedMarker .suiteBegin line text = .ok name := by
  refine and_congr_right fun _ => ?_
  unfold namedMarker
  cases Marker.suiteBegin.argument? text with
  | none => simp
  | some name => cases name <;> simp

def inSuiteAfterLine (inSuite : Bool) (line : Nat) (text : List Char) : Bool :=
  (scanLine inSuite line text).elim inSuite (·.inSuite)

theorem inSuiteAfterLine_iff (inSuite : Bool) (line : Nat) (text : List Char) :
    inSuiteAfterLine inSuite line text = true ↔
      OpensUnit text ∨ inSuite = true ∧ ¬ ClosesUnit text := by
  unfold inSuiteAfterLine scanLine ClosesUnit
  rw [opensUnit_iff line]
  simp only [Text.occurs_iff]
  by_cases opens : Text.Occurs Marker.suiteBegin.literal.toList text
  · cases namedMarker .suiteBegin line text <;> simp [opens]
  by_cases closes : Text.Occurs Marker.suiteEnd.literal.toList text
  · simp [opens, closes]
  simp only [opens, closes, if_false, false_and, not_false_eq_true, and_true, false_or]
  split
  next => cases namedMarker .testCase line text <;> rfl
  next => rfl

theorem inSuite_of_scanLine {inSuite : Bool} {line : Nat} {text : List Char} {step : ScanStep}
    (found : scanLine inSuite line text = some step) :
    step.inSuite = true ↔ step.item.Opens ∨ inSuite = true ∧ ¬ step.item.Closes := by
  rw [scanLine_eq] at found
  generalize LineKind.of text = kind at found
  unfold ScanItem.Opens ScanItem.Closes
  cases kind with
  | opening name => cases name <;> cases found <;> simp
  | closing => cases found; simp
  | test name => cases inSuite <;> cases name <;> cases found <;> simp
  | plain => cases found

/-! ## The whole scan -/

theorem scanFrom_cons (inSuite : Bool) (line : Nat) (text : List Char) (rest : List (List Char)) :
    scanFrom inSuite line (text :: rest) = (scanLine inSuite line text).toList ++
      scanFrom (inSuiteAfterLine inSuite line text) (line + 1) rest := by
  rw [scanFrom, inSuiteAfterLine]
  cases scanLine inSuite line text <;> rfl

theorem mem_itemsFrom_iff {inSuite : Bool} (above texts : List (List Char))
    (known : inSuite = true ↔ UnitOpen above) (item : ScanItem) :
    item ∈ itemsFrom inSuite above.length texts ↔
      ∃ earlier text later, texts = earlier ++ text :: later ∧
        Shows (UnitOpen (above ++ earlier)) (above.length + earlier.length) text item := by
  induction texts generalizing inSuite above with
  | nil => simp [itemsFrom, scanFrom]
  | cons text rest ih =>
    have here := shows_iff known above.length text item
    have opened : inSuiteAfterLine inSuite above.length text = true ↔ UnitOpen (above ++ [text]) := by
      rw [inSuiteAfterLine_iff, UnitOpen, openAfter_concat, known]
      rfl
    have later := ih (above ++ [text]) opened
    simp only [List.length_append, List.length_singleton, List.append_assoc,
      List.singleton_append] at later
    have parts : item ∈ itemsFrom inSuite above.length (text :: rest) ↔
        (scanLine inSuite above.length text).map (·.item) = some item ∨
          item ∈ itemsFrom (inSuiteAfterLine inSuite above.length text) (above.length + 1) rest := by
      rw [itemsFrom, scanFrom_cons, List.map_append, List.mem_append]
      cases scanLine inSuite above.length text <;> simp [itemsFrom, eq_comm]
    rw [parts, later, ← here]
    constructor
    · rintro (shows | ⟨earlier, shown, after, rfl, shows⟩)
      · exact ⟨[], text, rest, rfl, by simpa using shows⟩
      · refine ⟨text :: earlier, shown, after, rfl, ?_⟩
        rwa [List.length_cons, Nat.add_comm earlier.length, ← Nat.add_assoc]
    · rintro ⟨earlier, shown, after, parts, shows⟩
      cases earlier with
      | nil =>
        obtain ⟨rfl, rfl⟩ := List.cons.inj parts
        exact .inl (by simpa using shows)
      | cons first earlier =>
        obtain ⟨rfl, rfl⟩ := List.cons.inj parts
        refine .inr ⟨earlier, shown, after, rfl, ?_⟩
        rwa [List.length_cons, Nat.add_comm earlier.length, ← Nat.add_assoc] at shows

theorem inSuite_of_scanFrom {inSuite : Bool} {line : Nat} {texts : List (List Char)}
    {seen : List ScanItem}
    (known : inSuite = true ↔ OpenAfter ScanItem.Opens ScanItem.Closes seen)
    {before after : List ScanStep} {step : ScanStep}
    (parts : scanFrom inSuite line texts = before ++ step :: after) :
    step.inSuite = true ↔ OpenAfter ScanItem.Opens ScanItem.Closes
      (seen ++ (before ++ [step]).map (·.item)) := by
  induction texts generalizing inSuite line seen before with
  | nil => simp [scanFrom] at parts
  | cons text rest ih =>
    rw [scanFrom] at parts
    split at parts
    next => exact ih known parts
    next first found =>
      have opened : first.inSuite = true ↔
          OpenAfter ScanItem.Opens ScanItem.Closes (seen ++ [first.item]) := by
        rw [inSuite_of_scanLine found, openAfter_concat, known]
      cases before with
      | nil =>
        obtain ⟨rfl, -⟩ := List.cons.inj parts
        exact opened
      | cons head before =>
        obtain ⟨rfl, later⟩ := List.cons.inj parts
        simpa using ih opened later

theorem line_of_shows {unitOpen : Prop} {line : Nat} {text : List Char} {item : ScanItem}
    (shows : Shows unitOpen line text item) : item.line = line := by
  cases shows with
  | opening _ named => cases named <;> rfl
  | closing => rfl
  | test _ _ _ _ named => cases named <;> rfl

theorem exists_named (m : Marker) (event : String → Event) (line : Nat) (text : List Char) :
    ∃ item, Named m event line text item :=
  ⟨_, (named_iff m event line text _).2 rfl⟩

theorem exists_shows_iff (unitOpen : Prop) (line : Nat) (text : List Char) :
    (∃ item, Shows unitOpen line text item) ↔
      Text.Occurs Marker.suiteBegin.literal.toList text ∨
        Text.Occurs Marker.suiteEnd.literal.toList text ∨
          Marker.testCase.literal.toList <+: Text.trimStart text ∧ unitOpen := by
  constructor
  · rintro ⟨item, opens | ⟨-, closes⟩ | ⟨-, -, begins, inside⟩⟩
    · exact .inl opens
    · exact .inr (.inl closes)
    · exact .inr (.inr ⟨begins, inside⟩)
  · intro marked
    by_cases opens : Text.Occurs Marker.suiteBegin.literal.toList text
    · obtain ⟨item, named⟩ := exists_named .suiteBegin (.suiteBegin · line) line text
      exact ⟨item, .opening opens named⟩
    by_cases closes : Text.Occurs Marker.suiteEnd.literal.toList text
    · exact ⟨_, .closing opens closes⟩
    obtain ⟨begins, inside⟩ := (marked.resolve_left opens).resolve_left closes
    obtain ⟨item, named⟩ := exists_named .testCase (.testCase · line) line text
    exact ⟨item, .test opens closes begins inside named⟩

/-- A scan finds what the lines show, each line by its own text and by what is open above it, in the
order of the lines and one item a line at most. After an item a unit is open just where the last
directive among the items so far opens one. -/
theorem scan_items (source : String) :
    let texts := Text.lines source.toList
    let items := (scan source).map (·.item)
    (∀ item, item ∈ items ↔ ∃ earlier text later, texts = earlier ++ text :: later ∧
      Shows (UnitOpen earlier) earlier.length text item) ∧
    (∀ earlier text later, texts = earlier ++ text :: later →
      ((∃ item ∈ items, item.line = earlier.length) ↔
        Text.Occurs Marker.suiteBegin.literal.toList text ∨
          Text.Occurs Marker.suiteEnd.literal.toList text ∨
            Marker.testCase.literal.toList <+: Text.trimStart text ∧ UnitOpen earlier)) ∧
    (items.map (·.line)).Pairwise (· < ·) ∧
    ∀ before step after, scan source = before ++ step :: after →
      (step.inSuite = true ↔
        OpenAfter ScanItem.Opens ScanItem.Closes ((before ++ [step]).map (·.item))) := by
  intro texts items
  have found (item : ScanItem) : item ∈ items ↔ ∃ earlier text later,
      texts = earlier ++ text :: later ∧ Shows (UnitOpen earlier) earlier.length text item := by
    have closed : false = true ↔ UnitOpen [] := by simp [UnitOpen, not_openAfter_nil]
    have read := mem_itemsFrom_iff [] texts closed item
    simp only [List.nil_append, List.length_nil, Nat.zero_add] at read
    exact read
  refine ⟨found, fun earlier text later parts => ?lines, ?increasing, fun before step after run => ?_⟩
  case lines =>
    rw [← exists_shows_iff (UnitOpen earlier) earlier.length text]
    constructor
    · rintro ⟨item, member, here⟩
      obtain ⟨earlier', text', later', parts', shows⟩ := (found item).1 member
      have same : earlier.length = earlier'.length := here.symm.trans (line_of_shows shows)
      obtain ⟨rfl, rest⟩ := List.append_inj (parts.symm.trans parts') same
      obtain ⟨rfl, rfl⟩ := List.cons.inj rest
      exact ⟨item, shows⟩
    · rintro ⟨item, shows⟩
      exact ⟨item, (found item).2 ⟨earlier, text, later, parts, shows⟩, line_of_shows shows⟩
  case increasing =>
    exact List.Pairwise.sublist (lines_itemsFrom false 0 texts) List.pairwise_lt_range'
  · have closed : false = true ↔ OpenAfter ScanItem.Opens ScanItem.Closes [] := by
      simp [not_openAfter_nil]
    exact inSuite_of_scanFrom closed run

theorem scan_items_declared_in_unit :
    let source := ":- begin_tests(u).\n  test(a, []) :- b."
    (∃ item ∈ (scan source).map (·.item), item.line = 1) ∧
      OpenAfter ScanItem.Opens ScanItem.Closes
        [.event (.suiteBegin "u" 0), .event (.testCase "a" 1)] := by
  intro source
  let opening := ":- begin_tests(u).".toList
  obtain ⟨-, marked, -, inSuite⟩ := scan_items source
  have inside : UnitOpen [opening] :=
    ⟨[], opening, [], rfl, ⟨by decide, ['u'], by decide, by decide⟩, by simp⟩
  constructor
  · exact (marked [opening] "  test(a, []) :- b.".toList [] (by decide)).2
      (.inr (.inr ⟨by decide, inside⟩))
  · exact (inSuite [⟨.event (.suiteBegin "u" 0), true⟩] ⟨.event (.testCase "a" 1), true⟩ []
      (by decide)).1 rfl

end TestExplorer
