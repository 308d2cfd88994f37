import TestExplorer.Shell.State

set_option autoImplicit false

namespace TestExplorer.Shell

structure Value where
  quoted : Bool
  texts : List (List Char)

def Value.text (v : Value) : List Char :=
  joinWords v.texts

def textOf (values : List Value) : List Char :=
  values.flatMap Value.text

def standardBreaks : List Char :=
  [' ', '\t', '\n']

-- A blank parts words however many of it there are.
def isSoft (breaks : List Char) (c : Char) : Bool :=
  standardBreaks.contains c && breaks.contains c

-- Any other sign ends a word, even an empty one.
def isHard (breaks : List Char) (c : Char) : Bool :=
  !standardBreaks.contains c && breaks.contains c

-- The fields that are complete, and the one that is still open, if any, with its last character
-- first.
structure Fields where
  done : List (List Char) := []
  current : Option (List Char) := none
  blankEnd : Bool := false

namespace Fields

def add (f : Fields) (text : List Char) : Fields :=
  { f with current := some (text.reverse ++ f.current.getD []), blankEnd := false }

def close (f : Fields) : Fields :=
  { done := f.done ++ (f.current.map List.reverse).toList }

def addEach (f : Fields) : List (List Char) → Fields
  | [] => f
  | [t] => add f t
  | t :: rest => addEach (close (add f t)) rest

def addChar (breaks : List Char) (f : Fields) (c : Char) : Fields :=
  if isSoft breaks c then
    if f.current.isSome then { close f with blankEnd := true } else f
  else if isHard breaks c then
    if f.current.isSome then close f
    else if f.blankEnd then { f with blankEnd := false }
    else { f with done := f.done ++ [[]] }
  else add f [c]

def addValue (breaks : List Char) (f : Fields) (v : Value) : Fields :=
  if v.quoted then addEach f v.texts
  else v.text.foldl (addChar breaks) f

end Fields

-- The fields of a word. Quotes around nothing but parameters of which there are none are no field.
def fieldsOfValues (breaks : List Char) (values : List Value) : List (List Char) :=
  if values.any (·.texts.isEmpty) && values.all (·.text.isEmpty) then []
  else (values.foldl (Fields.addValue breaks) {}).close.done

inductive Match where
  | char (c : Char)
  | one
  | many
  | oneOf (negated : Bool) (ranges : List (Char × Char))

def readRanges : Bool → List Char → Option (List (Char × Char) × List Char)
  | _, [] => none
  | first, c :: '-' :: d :: rest =>
    if c = ']' ∧ !first then some ([], '-' :: d :: rest)
    else if d = ']' then
      (readRanges false ('-' :: d :: rest)).map fun (ranges, tail) => ((c, c) :: ranges, tail)
    else (readRanges false rest).map fun (ranges, tail) => ((c, d) :: ranges, tail)
  | first, c :: rest =>
    if c = ']' ∧ !first then some ([], rest)
    else (readRanges false rest).map fun (ranges, tail) => ((c, c) :: ranges, tail)

def readPattern : Nat → List Char → List Match
  | 0, _ => []
  | _, [] => []
  | fuel + 1, '*' :: rest => .many :: readPattern fuel rest
  | fuel + 1, '?' :: rest => .one :: readPattern fuel rest
  | fuel + 1, '\\' :: c :: rest => .char c :: readPattern fuel rest
  | fuel + 1, '[' :: rest =>
    let negated := rest.head? == some '!'
    match readRanges true (if negated then rest.tail else rest) with
    | some (ranges, tail) => .oneOf negated ranges :: readPattern fuel tail
    | none => .char '[' :: readPattern fuel rest
  | fuel + 1, c :: rest => .char c :: readPattern fuel rest

-- The values as one pattern. Neighbours that are not quoted are read together.
def patternOf (values : List Value) : List Match :=
  (values.splitBy fun a b => !a.quoted && !b.quoted).flatMap fun run =>
    if run.all (·.quoted) then (textOf run).map .char
    else readPattern (textOf run).length (textOf run)

def someTail (rest : List Char → Bool) : List Char → Bool
  | [] => rest []
  | c :: text => rest (c :: text) || someTail rest text

def fits : List Match → List Char → Bool
  | [], text => text.isEmpty
  | .char c :: more, d :: text => c == d && fits more text
  | .one :: more, _ :: text => fits more text
  | .oneOf negated ranges :: more, d :: text =>
    (ranges.any fun (a, b) => a ≤ d && d ≤ b) != negated && fits more text
  | .many :: more, text => someTail (fits more) text
  | _ :: _, [] => false

def cutFront (longest : Bool) (pattern : List Match) (text : List Char) : List Char :=
  let sizes := List.range (text.length + 1)
  let sizes := if longest then sizes.reverse else sizes
  text.drop ((sizes.find? fun n => fits pattern (text.take n)).getD 0)

def cutBack (longest : Bool) (pattern : List Match) (text : List Char) : List Char :=
  let sizes := List.range (text.length + 1)
  let sizes := if longest then sizes else sizes.reverse
  text.take ((sizes.find? fun n => fits pattern (text.drop n)).getD text.length)

-- The words of a line that is read: as many as there are names, the last with all that is left.
-- A character that was protected parts no words.
def readFields (breaks : List Char) (count : Nat) (line : List (Char × Bool)) : List (List Char) :=
  match count with
  | 0 => []
  | 1 => [trimEnd (skipSoft line)]
  | n + 2 =>
    let line := skipSoft line
    let word := line.takeWhile fun c => !soft c && !hard c
    let rest := skipSoft (line.drop word.length)
    let rest := if rest.head?.any hard then rest.tail else rest
    word.map (·.1) :: readFields breaks (n + 1) rest
where
  soft (c : Char × Bool) : Bool := !c.2 && isSoft breaks c.1
  hard (c : Char × Bool) : Bool := !c.2 && isHard breaks c.1
  skipSoft (line : List (Char × Bool)) : List (Char × Bool) := line.dropWhile soft
  trimEnd (line : List (Char × Bool)) : List Char :=
    ((line.reverse.dropWhile soft).reverse).map (·.1)

def readInputLine (raw : Bool) : List Char → List (Char × Bool) × Bool × List Char
  | [] => ([], false, [])
  | '\n' :: rest => ([], true, rest)
  | '\\' :: c :: rest =>
    if raw then
      let (line, ended, tail) := readInputLine raw (c :: rest)
      (('\\', false) :: line, ended, tail)
    else
      let (line, ended, tail) := readInputLine raw rest
      (if c = '\n' then line else (c, true) :: line, ended, tail)
  | c :: rest =>
    let (line, ended, tail) := readInputLine raw rest
    ((c, false) :: line, ended, tail)

end TestExplorer.Shell
