import TestExplorer.Text.Number
import TestExplorer.Text.Search
import TestExplorer.Toml.Basic

set_option autoImplicit false

namespace TestExplorer.Toml

def isDigit (c : Char) : Bool :=
  '0' ≤ c && c ≤ '9'

def digitsIn (base : Nat) (value : Nat) (afterDigit : Bool) : List Char → Option Nat
  | [] => if afterDigit then some value else none
  | '_' :: rest => if afterDigit then digitsIn base value false rest else none
  | c :: rest => do
    let d ← Text.hexDigit? c
    if d < base then digitsIn base (value * base + d) true rest else none

def plainDigits? (text : List Char) : Option Nat :=
  match text with
  | '0' :: _ :: _ => none
  | _ => digitsIn 10 0 false text

def integerLimit : Nat := 1 <<< 63

def bounded (value : Int) : Option Toml :=
  if -(integerLimit : Int) ≤ value ∧ value < integerLimit then some (.integer value) else none

def integer? (text : List Char) : Option Toml :=
  match text with
  | '0' :: 'x' :: rest => do bounded (← digitsIn 16 0 false rest)
  | '0' :: 'o' :: rest => do bounded (← digitsIn 8 0 false rest)
  | '0' :: 'b' :: rest => do bounded (← digitsIn 2 0 false rest)
  | '+' :: rest => do bounded (← plainDigits? rest)
  | '-' :: rest => do bounded (-(← plainDigits? rest : Int))
  | _ => do bounded (← plainDigits? text)

def splitExponent (text : List Char) : List Char × Option (List Char) :=
  match text.dropWhile (fun c => c != 'e' && c != 'E') with
  | [] => (text, none)
  | _ :: rest => (text.takeWhile (fun c => c != 'e' && c != 'E'), some rest)

def exponent? (text : List Char) : Option Int :=
  match text with
  | '+' :: rest => (digitsIn 10 0 false rest).map Int.ofNat
  | '-' :: rest => (digitsIn 10 0 false rest).map fun n => -Int.ofNat n
  | _ => (digitsIn 10 0 false text).map Int.ofNat

def overflows (digits : Nat) (power : Int) : Bool :=
  let bound := (1 <<< 1024) - (1 <<< 970)
  if digits = 0 then false
  else if 400 < power then true
  else if 0 ≤ power then bound ≤ digits * Nat.pow 10 power.toNat
  else
    let down := (-power).toNat
    decide (down + 300 < (Nat.toDigits 10 digits).length) && bound * Nat.pow 10 down ≤ digits

def magnitude? (text : List Char) : Option (Nat × Int) := do
  let (mantissa, exponent) := splitExponent text
  let power ← match exponent with
    | some e => exponent? e
    | none => some 0
  match Text.cut? ['.'] mantissa with
  | some (whole, fraction) =>
    let w ← plainDigits? whole
    let f ← digitsIn 10 0 false fraction
    let places := (fraction.filter isDigit).length
    some (w * Nat.pow 10 places + f, power - places)
  | none =>
    if exponent.isNone then none else some (← plainDigits? mantissa, power)

-- Only a number that is too large above zero is refused.
def float? (text : List Char) : Option Toml :=
  let (negative, body) := match text with
    | '+' :: rest => (false, rest)
    | '-' :: rest => (true, rest)
    | _ => (false, text)
  if body = "inf".toList ∨ body = "nan".toList then some .float
  else do
    let (digits, power) ← magnitude? body
    if !negative && overflows digits power then none else some .float

def twoDigits? : List Char → Option (Nat × List Char)
  | a :: b :: rest => do
    let high ← Text.digit? a
    let low ← Text.digit? b
    some (high * 10 + low, rest)
  | _ => none

def daysIn (year month : Nat) : Nat :=
  if month = 2 then
    if (year % 4 = 0 ∧ year % 100 ≠ 0) ∨ year % 400 = 0 then 29 else 28
  else if month = 4 ∨ month = 6 ∨ month = 9 ∨ month = 11 then 30
  else 31

def afterChar (c : Char) : List Char → Option (List Char)
  | d :: rest => if c = d then some rest else none
  | [] => none

def date? (text : List Char) : Option (List Char) := do
  let (century, rest) ← twoDigits? text
  let (decade, rest) ← twoDigits? rest
  let (month, rest) ← twoDigits? (← afterChar '-' rest)
  let (day, rest) ← twoDigits? (← afterChar '-' rest)
  if 1 ≤ month ∧ month ≤ 12 ∧ 1 ≤ day ∧ day ≤ daysIn (century * 100 + decade) month then some rest
  else none

def fraction? (text : List Char) : Option (List Char) :=
  match text with
  | '.' :: c :: rest => if isDigit c then some (rest.dropWhile isDigit) else none
  | '.' :: [] => none
  | _ => some text

def time? (text : List Char) : Option (List Char) := do
  let (hour, rest) ← twoDigits? text
  let (minute, rest) ← twoDigits? (← afterChar ':' rest)
  let (second, rest) ← twoDigits? (← afterChar ':' rest)
  if hour < 24 ∧ minute < 60 ∧ second ≤ 60 then fraction? rest else none

def offset? (text : List Char) : Option (List Char) :=
  match text with
  | [] => some []
  | 'Z' :: rest => some rest
  | 'z' :: rest => some rest
  | c :: rest => do
    if c ≠ '+' ∧ c ≠ '-' then none
    else
      let (hour, rest) ← twoDigits? rest
      let (minute, rest) ← twoDigits? (← afterChar ':' rest)
      if hour < 24 ∧ minute < 60 then some rest else none

def isTimeWithOffset (text : List Char) : Bool :=
  ((time? text).bind offset?) == some []

def isDate (text : List Char) : Bool :=
  date? text == some []

def isDatetime (text : List Char) : Bool :=
  time? text == some [] ||
  match date? text with
  | some [] => true
  | some (c :: rest) => (c == 'T' || c == 't') && isTimeWithOffset rest
  | none => false

def scalarOf? (text : List Char) : Option Toml :=
  if text = "true".toList then some (.boolean true)
  else if text = "false".toList then some (.boolean false)
  else if isDatetime text then some .datetime
  else (integer? text).orElse fun _ => float? text

def isDelimiter (c : Char) : Bool :=
  c == ' ' || c == '\t' || c == '\n' || c == '\r' || c == ',' || c == ']' || c == '\x7d' || c == '#'

-- A scalar and the text after it. A date and a time may be parted by one space.
def readScalar (text : List Char) : Option (Toml × List Char) :=
  let word := text.takeWhile (! isDelimiter ·)
  let rest := text.dropWhile (! isDelimiter ·)
  match isDate word, rest with
  | true, ' ' :: more =>
    if isTimeWithOffset (more.takeWhile (! isDelimiter ·)) then
      some (.datetime, more.dropWhile (! isDelimiter ·))
    else some (.datetime, rest)
  | _, _ => (scalarOf? word).map (·, rest)

end TestExplorer.Toml
