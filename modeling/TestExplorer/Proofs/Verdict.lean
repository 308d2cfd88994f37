import TestExplorer.Proofs.Scan.Argument
import TestExplorer.Text.Search
import TestExplorer.Verdict

set_option autoImplicit false

namespace TestExplorer

open Text (trim trimEnd)

/-! ## Readings of a line -/

def errorIn? (line : List Char) : Option (List Char) :=
  if errorMark.isPrefixOf line then some (trimEnd line) else none

def remarkIn? (line : List Char) : Option (List Char) :=
  if (trim line).isEmpty then none else some (trim line)

theorem errorIn?_eq_none_iff {line : List Char} : errorIn? line = none ↔ ¬ errorMark <+: line := by
  simp [errorIn?]

theorem errorIn?_eq_some_iff {line message : List Char} :
    errorIn? line = some message ↔ errorMark <+: line ∧ trimEnd line = message := by
  simp [errorIn?]

theorem remarkIn?_eq_none_iff {line : List Char} : remarkIn? line = none ↔ trim line = [] := by
  simp [remarkIn?]

theorem remarkIn?_eq_some_iff {line remark : List Char} :
    remarkIn? line = some remark ↔ remark ≠ [] ∧ trim line = remark := by
  simp only [remarkIn?, List.isEmpty_iff, Option.ite_none_left_eq_some, Option.some.injEq]
  exact and_congr_left fun same => same ▸ Iff.rfl

theorem blank_return : ∀ c ∈ ['\r'], Text.isBlank c :=
  List.forall_mem_singleton.2 rfl

theorem errorIn?_return (line : List Char) : errorIn? (line ++ ['\r']) = errorIn? line := by
  have opens : errorMark <+: line ++ ['\r'] ↔ errorMark <+: line :=
    ⟨Text.prefix_of_prefix_append_cons (by decide), (·.trans (List.prefix_append line _))⟩
  have ends : trimEnd (line ++ ['\r']) = trimEnd line := Text.trimEnd_append line blank_return
  simp [errorIn?, opens, ends]

theorem remarkIn?_return (line : List Char) : remarkIn? (line ++ ['\r']) = remarkIn? line := by
  rw [remarkIn?, Text.trim_append line blank_return, remarkIn?]

theorem map_firstErrorLine (text : List Char) :
    (firstErrorLine text).map trimEnd = ((Text.lines text).filterMap errorIn?).head? := by
  rw [firstErrorLine, List.find?_eq_findSome?_guard, List.map_findSome?, List.head?_filterMap]
  congr 1
  funext line
  simp [errorIn?, Option.guard]

theorem lastDiagnostic_eq (text : List Char) :
    lastDiagnostic text = ((Text.lines text).filterMap remarkIn?).getLast? := by
  rw [lastDiagnostic, List.find?_eq_findSome?_guard, ← List.map_reverse, List.findSome?_map,
    List.getLast?_eq_head?_reverse, ← List.filterMap_reverse, List.head?_filterMap]
  congr 1
  funext line
  simp [remarkIn?, Option.guard]

/-! ## What the lines of the streams tell -/

def Clean (texts : List (List Char)) : Prop :=
  ∀ line ∈ texts, ¬ errorMark <+: line

def Silent (texts : List (List Char)) : Prop :=
  ∀ line ∈ texts, trim line = []

def FirstError (texts : List (List Char)) (message : List Char) : Prop :=
  ∃ before line after, texts = before ++ line :: after ∧ Clean before ∧ errorMark <+: line ∧
    trimEnd line = message

def LastRemark (texts : List (List Char)) (remark : List Char) : Prop :=
  ∃ before line after, texts = before ++ line :: after ∧ Silent after ∧ remark ≠ [] ∧
    trim line = remark

theorem filterMap_errorIn?_eq_nil_iff {texts : List (List Char)} :
    texts.filterMap errorIn? = [] ↔ Clean texts := by
  simp only [List.filterMap_eq_nil_iff, errorIn?_eq_none_iff, Clean]

theorem filterMap_remarkIn?_eq_nil_iff {texts : List (List Char)} :
    texts.filterMap remarkIn? = [] ↔ Silent texts := by
  simp only [List.filterMap_eq_nil_iff, remarkIn?_eq_none_iff, Silent]

theorem head?_filterMap_errorIn? {texts : List (List Char)} {message : List Char} :
    (texts.filterMap errorIn?).head? = some message ↔ FirstError texts message := by
  rw [List.head?_filterMap, List.findSome?_eq_some_iff]
  simp only [errorIn?_eq_some_iff, errorIn?_eq_none_iff, FirstError, Clean]
  grind

theorem getLast?_filterMap_remarkIn? {texts : List (List Char)} {remark : List Char} :
    (texts.filterMap remarkIn?).getLast? = some remark ↔ LastRemark texts remark := by
  rw [List.getLast?_filterMap, List.findSome?_eq_some_iff]
  simp only [remarkIn?_eq_some_iff, remarkIn?_eq_none_iff, LastRemark]
  constructor
  · rintro ⟨after, line, before, parts, said, silent⟩
    refine ⟨before.reverse, line, after.reverse, ?_, by simpa [Silent] using silent, said⟩
    simpa using congrArg List.reverse parts
  · rintro ⟨before, line, after, rfl, silent, said⟩
    exact ⟨after.reverse, line, before.reverse, by simp, said, by simpa [Silent] using silent⟩

theorem clean_or_firstError (texts : List (List Char)) :
    Clean texts ∨ ∃ message, FirstError texts message := by
  cases opens : (texts.filterMap errorIn?).head? with
  | none => exact .inl (filterMap_errorIn?_eq_nil_iff.1 (List.head?_eq_none_iff.1 opens))
  | some message => exact .inr ⟨message, head?_filterMap_errorIn?.1 opens⟩

theorem silent_or_lastRemark (texts : List (List Char)) :
    Silent texts ∨ ∃ remark, LastRemark texts remark := by
  cases last : (texts.filterMap remarkIn?).getLast? with
  | none => exact .inl (filterMap_remarkIn?_eq_nil_iff.1 (List.getLast?_eq_none_iff.1 last))
  | some remark => exact .inr ⟨remark, getLast?_filterMap_remarkIn?.1 last⟩

inductive Detail (out err : List (List Char)) : String → Prop
  | stderr {remark : List Char} (last : LastRemark err remark) : Detail out err (.ofList remark)
  | stdout {remark : List Char} (silent : Silent err) (last : LastRemark out remark) :
    Detail out err (.ofList remark)
  | none (silent : Silent err) (quiet : Silent out) : Detail out err "no diagnostic output"

/-- The verdict on a run that left these lines on its two streams. -/
inductive Verdict (exitCode : Option Int) (out err : List (List Char)) : Outcome → Prop
  | stdoutError {message : List Char} (first : FirstError out message) :
    Verdict exitCode out err (.failed (.ofList message))
  | stderrError {message : List Char} (clean : Clean out) (first : FirstError err message) :
    Verdict exitCode out err (.failed (.ofList message))
  | passed (clean : Clean out) (still : Clean err) (normal : exitCode = some 0) :
    Verdict exitCode out err .passed
  | exited {code : Int} {detail : String} (clean : Clean out) (still : Clean err)
    (ended : exitCode = some code) (abnormal : code ≠ 0) (told : Detail out err detail) :
    Verdict exitCode out err (.ofFailure (.exited code detail))
  | terminated (clean : Clean out) (still : Clean err) (killed : exitCode = none) :
    Verdict exitCode out err (.ofFailure .terminated)

theorem exists_detail (out err : List (List Char)) : ∃ detail, Detail out err detail := by
  rcases silent_or_lastRemark err with silent | ⟨remark, last⟩
  · rcases silent_or_lastRemark out with quiet | ⟨remark, last⟩
    · exact ⟨_, .none silent quiet⟩
    · exact ⟨_, .stdout silent last⟩
  · exact ⟨_, .stderr last⟩

theorem exists_verdict (exitCode : Option Int) (out err : List (List Char)) :
    ∃ outcome, Verdict exitCode out err outcome := by
  rcases clean_or_firstError out with clean | ⟨message, first⟩
  · rcases clean_or_firstError err with still | ⟨message, first⟩
    · cases exitCode with
      | none => exact ⟨_, .terminated clean still rfl⟩
      | some code =>
        by_cases normal : code = 0
        case pos => exact ⟨_, .passed clean still (congrArg some normal)⟩
        case neg =>
          obtain ⟨detail, told⟩ := exists_detail out err
          exact ⟨_, .exited clean still rfl normal told⟩
    · exact ⟨_, .stderrError clean first⟩
  · exact ⟨_, .stdoutError first⟩

/-! ## What the text of both streams tells -/

namespace Output

theorem classify_of_firstError {o : Output} {message : List Char}
    (first : FirstError (Text.lines o.text.toList) message) :
    o.classify = .failed (.ofList message) := by
  have found := map_firstErrorLine o.text.toList
  rw [head?_filterMap_errorIn?.2 first] at found
  obtain ⟨line, opens, rfl⟩ := Option.map_eq_some_iff.1 found
  simp only [classify, opens]

theorem firstErrorLine_eq_none {o : Output} (clean : Clean (Text.lines o.text.toList)) :
    firstErrorLine o.text.toList = none := by
  have found := map_firstErrorLine o.text.toList
  rw [filterMap_errorIn?_eq_nil_iff.2 clean] at found
  exact Option.map_eq_none_iff.1 found

section

variable (exitCode : Option Int) (stdout stderr : String)

theorem filterMap_ofStreams {β : Type} (read : List Char → Option β) (empty : read [] = none)
    (closed : ∀ line, read (line ++ ['\r']) = read line) :
    (Text.lines (ofStreams exitCode stdout stderr).text.toList).filterMap read =
      (Text.lines stdout.toList).filterMap read ++ (Text.lines stderr.toList).filterMap read := by
  have joined : (ofStreams exitCode stdout stderr).text.toList =
      stdout.toList ++ '\n' :: stderr.toList := by
    simp [ofStreams]
  rw [joined, Text.filterMap_lines_append_feed closed empty]

theorem lastDiagnostic_ofStreams {detail : String}
    (told : Detail (Text.lines stdout.toList) (Text.lines stderr.toList) detail) :
    ((lastDiagnostic (ofStreams exitCode stdout stderr).text.toList).map String.ofList).getD
      "no diagnostic output" = detail := by
  rw [lastDiagnostic_eq, filterMap_ofStreams exitCode stdout stderr remarkIn? rfl remarkIn?_return,
    List.getLast?_append]
  cases told with
  | stderr last => rw [getLast?_filterMap_remarkIn?.2 last]; rfl
  | stdout silent last =>
    rw [filterMap_remarkIn?_eq_nil_iff.2 silent, getLast?_filterMap_remarkIn?.2 last]
    rfl
  | none silent quiet =>
    rw [filterMap_remarkIn?_eq_nil_iff.2 silent, filterMap_remarkIn?_eq_nil_iff.2 quiet]
    rfl

theorem classify_eq_of_verdict {outcome : Outcome}
    (told : Verdict exitCode (Text.lines stdout.toList) (Text.lines stderr.toList) outcome) :
    (ofStreams exitCode stdout stderr).classify = outcome := by
  have errors := filterMap_ofStreams exitCode stdout stderr errorIn? rfl errorIn?_return
  have without (clean : Clean (Text.lines stdout.toList)) (still : Clean (Text.lines stderr.toList)) :
      firstErrorLine (ofStreams exitCode stdout stderr).text.toList = none := by
    apply firstErrorLine_eq_none
    rw [← filterMap_errorIn?_eq_nil_iff, errors, filterMap_errorIn?_eq_nil_iff.2 clean,
      filterMap_errorIn?_eq_nil_iff.2 still, List.append_nil]
  cases told with
  | stdoutError first =>
    apply classify_of_firstError
    rw [← head?_filterMap_errorIn?, errors, List.head?_append, head?_filterMap_errorIn?.2 first]
    rfl
  | stderrError clean first =>
    apply classify_of_firstError
    rw [← head?_filterMap_errorIn?, errors, filterMap_errorIn?_eq_nil_iff.2 clean, List.nil_append,
      head?_filterMap_errorIn?.2 first]
  | passed clean still normal =>
    rw [classify, without clean still]
    subst normal
    rfl
  | @exited code detail clean still ended abnormal said =>
    rw [classify, without clean still, lastDiagnostic_ofStreams exitCode stdout stderr said]
    subst ended
    cases code with
    | ofNat n =>
      cases n with
      | zero => contradiction
      | succ n => rfl
    | negSucc n => rfl
  | terminated clean still killed =>
    rw [classify, without clean still]
    subst killed
    rfl

end

/-- The verdict on the text of both streams is the one that the lines of each tell, and this text has
the errors of the one stream and then those of the other, however the streams end. -/
theorem classify_ofStreams (exitCode : Option Int) (stdout stderr : String) :
    (∀ outcome, (ofStreams exitCode stdout stderr).classify = outcome ↔
        Verdict exitCode (Text.lines stdout.toList) (Text.lines stderr.toList) outcome) ∧
      (Text.lines (ofStreams exitCode stdout stderr).text.toList).filterMap errorIn? =
        (Text.lines stdout.toList).filterMap errorIn? ++
          (Text.lines stderr.toList).filterMap errorIn? := by
  refine ⟨fun outcome => ⟨fun judged => ?_, classify_eq_of_verdict exitCode stdout stderr⟩,
    filterMap_ofStreams exitCode stdout stderr errorIn? rfl errorIn?_return⟩
  obtain ⟨told, verdict⟩ :=
    exists_verdict exitCode (Text.lines stdout.toList) (Text.lines stderr.toList)
  rw [← judged, classify_eq_of_verdict exitCode stdout stderr verdict]
  exact verdict

-- The carriage return belongs to the line feed between the streams, and the mark opens a line.
example : (ofStreams (some 0) "ERR\r" "OR\nERROR: late \r\n").classify = .failed "ERROR: late" := by
  decide +kernel

end Output

end TestExplorer
