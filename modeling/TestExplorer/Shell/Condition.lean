import TestExplorer.FileSystem.Basic
import TestExplorer.Shell.Arithmetic

set_option autoImplicit false

namespace TestExplorer.Shell

inductive ConditionError where
  | unexpectedOperator (word : List Char)
  | argumentExpected (word : List Char)
  | illegalNumber (word : List Char)
  | closingExpected

def ConditionError.message : ConditionError → List Char
  | unexpectedOperator word => word ++ ": unexpected operator".toList
  | argumentExpected word => word ++ ": argument expected".toList
  | illegalNumber word => "Illegal number: ".toList ++ word
  | closingExpected => "closing paren expected".toList

namespace Condition

abbrev Answer := Except ConditionError (Bool × List (List Char))

def unaryOf? (stat : List Char → Option Inode) (word : List Char) : Option (List Char → Bool) :=
  match word with
  | ['-', 'n'] => some fun a => !a.isEmpty
  | ['-', 'z'] => some fun a => a.isEmpty
  | ['-', 'f'] => some fun a => (stat a).any (·.isFile)
  | ['-', 'd'] => some fun a => (stat a).any (·.isDir)
  | ['-', 's'] => some fun a => (stat a).any fun node => node.isDir || 0 < node.size
  | ['-', 'x'] => some fun a => (stat a).any (·.isDir)
  | ['-', c] =>
    if c = 'e' ∨ c = 'r' ∨ c = 'w' then some fun a => (stat a).isSome
    else if "bcghkpuLhStOG".toList.contains c then some fun _ => false
    else none
  | _ => none

def wholeNumber (text : List Char) : Except ConditionError Int :=
  let digits := text.dropWhile isWide
  let (negative, body) := match digits with
    | '-' :: rest => (true, rest)
    | '+' :: rest => (false, rest)
    | _ => (false, digits)
  let number := body.takeWhile isDigit
  if number.isEmpty || !((body.dropWhile isDigit).dropWhile isWide).isEmpty then
    .error (.illegalNumber text)
  else .ok (if negative then -(natOf number : Int) else natOf number)

def binaryOf? (word : List Char) : Option (List Char → List Char → Except ConditionError Bool) :=
  let onNumbers (holds : Int → Int → Bool) : List Char → List Char → Except ConditionError Bool :=
    fun a b => do pure (holds (← wholeNumber a) (← wholeNumber b))
  match String.ofList word with
  | "=" => some fun a b => .ok (a == b)
  | "!=" => some fun a b => .ok (a != b)
  | "<" => some fun a b => .ok (decide (a < b))
  | ">" => some fun a b => .ok (decide (b < a))
  | "-eq" => some (onNumbers fun a b => a == b)
  | "-ne" => some (onNumbers fun a b => a != b)
  | "-lt" => some (onNumbers fun a b => a < b)
  | "-le" => some (onNumbers fun a b => a ≤ b)
  | "-gt" => some (onNumbers fun a b => b < a)
  | "-ge" => some (onNumbers fun a b => b ≤ a)
  | _ => none

mutual

def either (stat : List Char → Option Inode) : Nat → List (List Char) → Answer
  | 0, _ => .ok (false, [])
  | fuel + 1, words => do
    let (a, rest) ← both stat fuel words
    match rest with
    | ['-', 'o'] :: rest =>
      if rest.isEmpty then pure (false, [])
      else
        let (b, rest) ← either stat fuel rest
        pure (a || b, rest)
    | _ => pure (a, rest)

def both (stat : List Char → Option Inode) : Nat → List (List Char) → Answer
  | 0, _ => .ok (false, [])
  | fuel + 1, words => do
    let (a, rest) ← negation stat fuel words
    match rest with
    | ['-', 'a'] :: rest =>
      if rest.isEmpty then pure (false, [])
      else
        let (b, rest) ← both stat fuel rest
        pure (a && b, rest)
    | _ => pure (a, rest)

def negation (stat : List Char → Option Inode) : Nat → List (List Char) → Answer
  | 0, _ => .ok (false, [])
  | fuel + 1, words =>
    match words with
    | ['!'] :: word :: rest => do
      let (a, rest) ← negation stat fuel (word :: rest)
      pure (!a, rest)
    | _ => primary stat fuel words

def primary (stat : List Char → Option Inode) : Nat → List (List Char) → Answer
  | 0, _ => .ok (false, [])
  | fuel + 1, words =>
    match words with
    | [] => .ok (false, [])
    | [a] => .ok (!a.isEmpty, [])
    | a :: op :: rest =>
      match binaryOf? op, rest with
      | some holds, b :: rest => do pure (← holds a b, rest)
      | some _, [] =>
        match unaryOf? stat a with
        | some holds => .ok (holds op, [])
        | none => .error (.argumentExpected op)
      | none, _ =>
        if a = ['('] then do
          let (answer, rest) ← either stat fuel (op :: rest)
          match rest with
          | [')'] :: rest => pure (answer, rest)
          | _ => throw .closingExpected
        else match unaryOf? stat a with
          | some holds => .ok (holds op, rest)
          | none => .ok (!a.isEmpty, op :: rest)

end

-- The answer to a question. Words behind a question that is complete are an error.
def holds (stat : List Char → Option Inode) (words : List (List Char)) :
    Except ConditionError Bool :=
  match words with
  | [] => .ok false
  | [a] => .ok (!a.isEmpty)
  | [['!'], a] => .ok a.isEmpty
  | [['('], [')']] => .ok false
  | first :: _ => do
    let (answer, rest) ← either stat (4 * words.length + 4) words
    if rest.isEmpty then pure answer else throw (.unexpectedOperator first)

end Condition

end TestExplorer.Shell
