import TestExplorer.Shell.Arithmetic
import TestExplorer.Shell.Escape

set_option autoImplicit false

namespace TestExplorer.Shell

structure Directive where
  flags : List Char := []
  width : Nat := 0
  precision : Option Nat := none

inductive FormatComplaint where
  | notNumber (word : List Char)
  | partlyNumber (word : List Char)
  | outOfRange (word : List Char)
  | invalidDirective (text : List Char)
  | missingCharacter

def FormatComplaint.message : FormatComplaint → List Char
  | notNumber word => word ++ ": expected numeric value".toList
  | partlyNumber word => word ++ ": not completely converted".toList
  | outOfRange word => word ++ ": Numerical result out of range".toList
  | invalidDirective text => text ++ ": invalid directive".toList
  | missingCharacter => "missing format character".toList

structure Printed where
  out : List Char := []
  complaints : List FormatComplaint := []
  args : List (List Char) := []
  status : Nat := 0
  stopped : Bool := false

namespace Printed

def print (p : Printed) (text : List Char) : Printed :=
  { p with out := p.out ++ text }

def complain (p : Printed) (c : FormatComplaint) : Printed :=
  { p with complaints := p.complaints ++ [c], status := 1 }

def giveUp (p : Printed) (c : FormatComplaint) : Printed :=
  { p.complain c with status := 2, stopped := true }

def next (p : Printed) : List Char × Printed :=
  (p.args.head?.getD [], { p with args := p.args.tail })

end Printed

namespace Directive

def has (d : Directive) (flag : Char) : Bool :=
  d.flags.contains flag

def pad (d : Directive) (text : List Char) : List Char :=
  let blanks := List.replicate (d.width - text.length) ' '
  if d.has '-' then text ++ blanks else blanks ++ text

-- A number with its sign, with zeros up to the precision or, where none is given and a flag asks for
-- it, up to the width.
def number (d : Directive) (sign digits : List Char) : List Char :=
  let digits := List.replicate (d.precision.getD 1 - digits.length) '0' ++ digits
  let zeros :=
    if d.has '0' && !d.has '-' && d.precision.isNone then
      List.replicate (d.width - sign.length - digits.length) '0'
    else []
  d.pad (sign ++ zeros ++ digits)

def decimal (d : Directive) (n : Int) : List Char :=
  let sign :=
    if n < 0 then ['-'] else if d.has '+' then ['+'] else if d.has ' ' then [' '] else []
  d.number sign (if n = 0 then [] else Nat.toDigits 10 n.natAbs)

def unsigned (d : Directive) (conversion : Char) (n : Nat) : List Char :=
  let digits (base : Nat) := if n = 0 then [] else Nat.toDigits base n
  let mark (text : String) := if d.has '#' && n != 0 then text.toList else []
  match conversion with
  | 'o' => d.number [] ((if d.has '#' then ['0'] else []) ++ digits 8)
  | 'x' => d.number (mark "0x") (digits 16)
  | 'X' => d.number (mark "0X") ((digits 16).map Char.toUpper)
  | _ => d.number [] (digits 10)

end Directive

def largest : Int := (1 <<< 63 : Nat) - 1

def argumentOf (p : Printed) (text : List Char) : Int × Printed :=
  let digits := Expression.skip text
  match text with
  | '"' :: c :: _ => (c.toNat, p)
  | '\'' :: c :: _ => (c.toNat, p)
  | _ =>
    let (negative, body) := match digits with
      | '-' :: rest => (true, rest)
      | '+' :: rest => (false, rest)
      | _ => (false, digits)
    match Expression.readNumber body with
    | none => if text.isEmpty then (0, p) else (0, p.complain (.notNumber text))
    | some (n, rest) =>
      let value : Int := if negative then -n else n
      let p := if rest.isEmpty then p else p.complain (.partlyNumber text)
      if largest < value then (largest, p.complain (.outOfRange text))
      else if value < -largest - 1 then (-largest - 1, p.complain (.outOfRange text))
      else (value, p)

def readSize (p : Printed) (text : List Char) : Int × List Char × Printed :=
  match text with
  | '*' :: rest =>
    let (arg, p) := p.next
    let (n, p) := argumentOf p arg
    (n, rest, p)
  | _ => (natOf (text.takeWhile isDigit), text.dropWhile isDigit, p)

def isFlag (c : Char) : Bool :=
  c == '#' || c == '-' || c == '+' || c == ' ' || c == '0'

def readDirective (p : Printed) (text : List Char) : Directive × List Char × Printed :=
  let flags := text.takeWhile isFlag
  let (width, rest, p) := readSize p (text.dropWhile isFlag)
  let flags := if width < 0 then '-' :: flags else flags
  match rest with
  | '.' :: rest =>
    let (precision, rest, p) := readSize p rest
    ({ flags, width := width.natAbs
       precision := if precision < 0 then none else some precision.toNat }, rest, p)
  | _ => ({ flags, width := width.natAbs }, rest, p)

def convert (p : Printed) (d : Directive) (conversion : Char) : Option Printed :=
  let (arg, taken) := p.next
  if conversion = 's' then some (taken.print (d.pad (arg.take (d.precision.getD arg.length))))
  else if conversion = 'c' then some (taken.print (d.pad [arg.head?.getD '\x00']))
  else if conversion = 'b' then
    let (text, stop) := escaped arg
    let shown := taken.print (d.pad (text.take (d.precision.getD text.length)))
    some { shown with stopped := stop }
  else if conversion = 'd' ∨ conversion = 'i' then
    let (n, p) := argumentOf taken arg
    some (p.print (d.decimal n))
  else if conversion = 'o' ∨ conversion = 'u' ∨ conversion = 'x' ∨ conversion = 'X' then
    let (n, p) := argumentOf taken arg
    some (p.print (d.unsigned conversion (Expression.bits n)))
  else none

def formatOnce : Nat → List Char → Printed → Printed
  | 0, _, p => p
  | _ + 1, [], p => p
  | fuel + 1, '\\' :: rest, p =>
    let (c, rest) := formatEscape rest
    formatOnce fuel rest (p.print [c])
  | fuel + 1, '%' :: '%' :: rest, p => formatOnce fuel rest (p.print ['%'])
  | fuel + 1, '%' :: rest, p =>
    let (d, tail, p) := readDirective p rest
    match tail with
    | [] => p.giveUp .missingCharacter
    | conversion :: tail' =>
      match convert p d conversion with
      | some p => if p.stopped then p else formatOnce fuel tail' p
      | none =>
        let shown := rest.take (rest.length - tail'.length)
        p.giveUp (.invalidDirective ('%' :: shown))
  | fuel + 1, c :: rest, p =>
    let plain := (c :: rest).takeWhile fun c => c != '\\' && c != '%'
    formatOnce fuel ((c :: rest).drop plain.length) (p.print plain)

def formatAll : Nat → List Char → Printed → Printed
  | 0, _, p => p
  | fuel + 1, format, p =>
    let after := formatOnce (format.length + 1) format p
    if after.stopped || after.args.isEmpty || after.args.length == p.args.length then after
    else formatAll fuel format after

def format (text : List Char) (args : List (List Char)) : Printed :=
  formatAll (args.length + 1) text { args }

end TestExplorer.Shell
