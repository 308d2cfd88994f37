import TestExplorer.Path

set_option autoImplicit false

namespace TestExplorer.Ignore

inductive Atom where
  | literal (bytes : List UInt8)
  | any
  | star
  -- Two stars at the start: nothing, or directories.
  | leadingDirs
  -- Two stars at the end: everything below.
  | trailingDirs
  -- Two stars between separators: one separator, or directories between two.
  | innerDirs
  | anything
  | ranges (negated : Bool) (ranges : List (UInt8 × UInt8))
  deriving DecidableEq

inductive Token where
  | atom (a : Atom)
  | alternatives (options : List (List Token))

inductive GlobError where
  | unopenedAlternates
  | unclosedAlternates
  | invalidRange (low high : Char)
  | danglingEscape
  deriving DecidableEq

def GlobError.message : GlobError → String
  | unopenedAlternates =>
    "unopened alternate group; missing '\x7b' (maybe escape '\x7d' with '[\x7d]'?)"
  | unclosedAlternates =>
    "unclosed alternate group; missing '\x7d' (maybe escape '\x7b' with '[\x7b]'?)"
  | invalidRange low high => s!"invalid range; '{low}' > '{high}'"
  | danglingEscape => "dangling '\\'"

namespace Token

mutual

def isIdle : Token → Bool
  | atom _ => false
  | alternatives options => allIdle options

def areIdle : List Token → Bool
  | [] => true
  | t :: rest => t.isIdle && areIdle rest

def allIdle : List (List Token) → Bool
  | [] => true
  | o :: rest => areIdle o && allIdle rest

end

mutual

def before : Token → List (List Atom) → List (List Atom)
  | atom a, tails => tails.map (a :: ·)
  | alternatives options, tails =>
    if allIdle options then tails
    else (choices options).flatMap fun row => tails.map (row ++ ·)

-- Every way of choosing one alternative in each group. Empty alternatives cannot be chosen.
def rows : List Token → List (List Atom)
  | [] => [[]]
  | t :: rest => t.before (rows rest)

def choices : List (List Token) → List (List Atom)
  | [] => []
  | o :: rest => if areIdle o then choices rest else rows o ++ choices rest

end

end Token

/-- A glob as it is read. The tokens of the branch that is open stand in reverse, and so do the
finished branches of a group. -/
structure Reading where
  branch : List Token := []
  groups : List (List Token × List (List Token)) := []
  previous : Option Char := none
  plainBrackets : Bool := false

namespace Reading

def push (r : Reading) (a : Atom) : Reading :=
  { r with branch := .atom a :: r.branch }

def after (r : Reading) (c : Char) : Reading :=
  { r with previous := some c }

def openGroup (r : Reading) : Reading :=
  { r with branch := [], groups := (r.branch, []) :: r.groups }

-- A comma is plain outside groups.
def comma (r : Reading) : Reading :=
  match r.groups with
  | [] => r.push (.literal [0x2C])
  | (outer, done) :: more =>
    { r with branch := [], groups := (outer, r.branch.reverse :: done) :: more }

def closeGroup (r : Reading) : Except GlobError Reading :=
  match r.groups with
  | [] => .error .unopenedAlternates
  | (outer, done) :: more =>
    let options := (r.branch.reverse :: done).reverse
    .ok { r with branch := .alternatives options :: outer, groups := more }

def replaceLast (r : Reading) (a : Atom) : Reading :=
  match r.branch with
  | .atom .leadingDirs :: _ => r
  | .atom .trailingDirs :: _ => r
  | _ :: rest => { r with branch := .atom a :: rest }
  | [] => r.push a

end Reading

def charBytes (c : Char) : List UInt8 :=
  Text.toBytes c.toString

def readRanges (ranges : List (Char × Char)) (first open' : Bool) :
    List Char → Except GlobError (Option (List (Char × Char) × List Char))
  | [] => .ok none
  | c :: rest =>
    if c = ']' ∧ !first then
      .ok (some ((if open' then ('-', '-') :: ranges else ranges).reverse, rest))
    else if c = '-' ∧ !first ∧ !open' then readRanges ranges false true rest
    else match open', ranges with
      | true, (low, _) :: more =>
        if c < low then .error (.invalidRange low c)
        else readRanges ((low, c) :: more) false false rest
      | _, _ => readRanges ((c, c) :: ranges) false false rest

-- A range between characters of several bytes holds their outer bytes one by one.
def byteRanges (range : Char × Char) : List (UInt8 × UInt8) :=
  let (low, high) := range
  if low = high then (charBytes low).map fun b => (b, b)
  else
    let lows := charBytes low
    let highs := charBytes high
    lows.dropLast.map (fun b => (b, b)) ++
      [(lows.getLast?.getD 0, highs.head?.getD 0)] ++ highs.tail.map fun b => (b, b)

def readClass (r : Reading) (rest : List Char) : Except GlobError (Reading × List Char) :=
  let (negated, body) := match rest with
    | '!' :: body => (true, body)
    | '^' :: body => (true, body)
    | _ => (false, rest)
  match readRanges [] true false body with
  | .error e => .error e
  | .ok none => .ok ({ r.push (.literal [0x5B]) with plainBrackets := true }.after '[', rest)
  | .ok (some (ranges, tail)) =>
    .ok ((r.push (.ranges negated (ranges.flatMap byteRanges))).after ']', tail)

-- Two stars are directories only between separators and ends.
def readStars (r : Reading) (rest : List Char) : Reading × List Char :=
  let plain := ((r.push .star).push .star).after '*'
  if r.branch.isEmpty then
    match rest with
    | [] => ((r.push .leadingDirs).after '*', [])
    | '/' :: tail => ((r.push .leadingDirs).after '/', tail)
    | _ => (plain, rest)
  else if r.previous ≠ some '/' then (plain, rest)
  else match rest with
    | [] => ((r.replaceLast .trailingDirs).after '*', [])
    | '/' :: tail => ((r.replaceLast .innerDirs).after '/', tail)
    | c :: _ =>
      if (c = ',' ∨ c = '\x7d') ∧ !r.groups.isEmpty then
        ((r.replaceLast .trailingDirs).after '*', rest)
      else (plain, rest)

def readToken (r : Reading) (c : Char) (rest : List Char) :
    Except GlobError (Reading × List Char) :=
  match c with
  | '?' => .ok ((r.push .any).after c, rest)
  | '*' =>
    match rest with
    | '*' :: tail => .ok (readStars r tail)
    | _ => .ok ((r.push .star).after c, rest)
  | '[' =>
    if r.plainBrackets then .ok ((r.push (.literal [0x5B])).after c, rest) else readClass r rest
  | '\x7b' => .ok (r.openGroup.after c, rest)
  | '\x7d' => do pure ((← r.closeGroup).after c, rest)
  | ',' => .ok (r.comma.after c, rest)
  | '\\' =>
    match rest with
    | [] => .error .danglingEscape
    | d :: tail => .ok ((r.push (.literal (charBytes d))).after d, tail)
  | _ => .ok ((r.push (.literal (charBytes c))).after c, rest)

-- Every token takes a character at least, so `fuel` is the length of the text.
def readTokens : Nat → Reading → List Char → Except GlobError Reading
  | 0, r, _ => .ok r
  | _, r, [] => .ok r
  | fuel + 1, r, c :: rest => do
    let (r, rest) ← readToken r c rest
    readTokens fuel r rest

-- Alternatives written out: a path matches when it matches one of the rows.
structure Glob where
  rows : List (List Atom)
  deriving DecidableEq

namespace Glob

def ofText? (text : List Char) : Except GlobError Glob := do
  let r ← readTokens text.length {} text
  if !r.groups.isEmpty then throw .unclosedAlternates
  match r.branch with
  | [.atom .leadingDirs] => pure ⟨[[.anything]]⟩
  | branch => pure ⟨Token.rows branch.reverse⟩

-- Whether `rest` takes what is left after some bytes, all of them `allowed`.
def afterSome (allowed : UInt8 → Bool) (rest : List UInt8 → Bool) : List UInt8 → Bool
  | [] => rest []
  | b :: bytes => rest (b :: bytes) || (allowed b && afterSome allowed rest bytes)

def afterSeparator (rest : List UInt8 → Bool) : List UInt8 → Bool
  | [] => false
  | b :: bytes => (b == slash && rest bytes) || afterSeparator rest bytes

def afterByte (allowed : UInt8 → Bool) (rest : List UInt8 → Bool) : List UInt8 → Bool
  | [] => false
  | b :: bytes => allowed b && rest bytes

def afterLiteral (literal : List UInt8) (rest : List UInt8 → Bool) (bytes : List UInt8) : Bool :=
  literal.isPrefixOf bytes && rest (bytes.drop literal.length)

def rowMatches : List Atom → List UInt8 → Bool
  | [] => List.isEmpty
  | .literal bytes :: row => afterLiteral bytes (rowMatches row)
  | .any :: row => afterByte (· != slash) (rowMatches row)
  | .star :: row => afterSome (· != slash) (rowMatches row)
  | .leadingDirs :: row => fun bytes =>
    rowMatches row bytes || afterSeparator (rowMatches row) bytes
  | .trailingDirs :: row => afterByte (· == slash) (afterSome (fun _ => true) (rowMatches row))
  | .innerDirs :: row =>
    afterByte (· == slash) fun bytes =>
      rowMatches row bytes || afterSeparator (rowMatches row) bytes
  | .anything :: row => afterSome (fun _ => true) (rowMatches row)
  | .ranges negated ranges :: row =>
    afterByte (fun b => ranges.any (fun (low, high) => low ≤ b && b ≤ high) != negated)
      (rowMatches row)

def matchesPath (g : Glob) (bytes : List UInt8) : Bool :=
  g.rows.any (rowMatches · bytes)

end Glob

end TestExplorer.Ignore
