set_option autoImplicit false

namespace TestExplorer.Shell

inductive Change where
  | default (emptyToo : Bool)
  | assign (emptyToo : Bool)
  | alternative (emptyToo : Bool)
  | complain (emptyToo : Bool)
  | cutFront (longest : Bool)
  | cutBack (longest : Bool)

def Change.isCut : Change → Bool
  | cutFront _ => true
  | cutBack _ => true
  | _ => false

inductive Piece where
  | text (quoted : Bool) (chars : List Char)
  | parameter (quoted : Bool) (name : List Char)
  | length (name : List Char)
  | changed (quoted : Bool) (name : List Char) (change : Change) (word : List Piece)
  | output (quoted : Bool) (script : List Char)
  | sum (quoted : Bool) (expression : List Piece)
  -- Braces behind a dollar sign with something that is no parameter.
  | invalid

abbrev Word := List Piece

inductive Redirect where
  | output
  | append
  | input
  | duplicate
  deriving DecidableEq

inductive Token where
  | word (w : Word)
  | sign (chars : List Char)
  | lineEnd
  | redirect (descriptor : Option Nat) (kind : Redirect)
  | document (descriptor : Option Nat) (w : Word)
  | broken (reason : String)
  | finish

structure Placed where
  token : Token
  line : Nat

def isBlank (c : Char) : Bool :=
  c == ' ' || c == '\t'

def isWide (c : Char) : Bool :=
  isBlank c || c == '\n' || c == '\x0b' || c == '\x0c' || c == '\r'

def isDigit (c : Char) : Bool :=
  '0' ≤ c && c ≤ '9'

def isNameStart (c : Char) : Bool :=
  ('a' ≤ c && c ≤ 'z') || ('A' ≤ c && c ≤ 'Z') || c == '_'

def isNameChar (c : Char) : Bool :=
  isNameStart c || isDigit c

def isSpecialParameter (c : Char) : Bool :=
  isDigit c || c == '#' || c == '*' || c == '@' || c == '$' || c == '?' || c == '!' || c == '-'

def isMeta (c : Char) : Bool :=
  isBlank c || c == '\n' || c == ';' || c == '&' || c == '|' || c == '<' || c == '>' ||
    c == '(' || c == ')'

def addChar (quoted : Bool) (c : Char) (w : Word) : Word :=
  match w.getLast? with
  | some (.text q chars) =>
    if q = quoted then w.dropLast ++ [.text q (chars ++ [c])] else w ++ [.text quoted [c]]
  | _ => w ++ [.text quoted [c]]

inductive Mode where
  | plain
  | single
  | double
  deriving DecidableEq

-- The text up to the sign that closes what has been opened, and the text after that sign. Quoted
-- signs do not count.
def readNested (opens closes : Char) : Mode → Nat → List Char → Option (List Char × List Char)
  | _, _, [] => none
  | .single, depth, c :: rest =>
    (readNested opens closes (if c = '\'' then .plain else .single) depth rest).map fun (a, b) =>
      (c :: a, b)
  | _, _, ['\\'] => none
  | mode, depth, '\\' :: c :: rest =>
    (readNested opens closes mode depth rest).map fun (a, b) => ('\\' :: c :: a, b)
  | .double, depth, c :: rest =>
    (readNested opens closes (if c = '"' then .plain else .double) depth rest).map fun (a, b) =>
      (c :: a, b)
  | .plain, depth, c :: rest =>
    if c = closes ∧ depth = 0 then some ([], rest)
    else
      let depth := if c = opens then depth + 1 else if c = closes then depth - 1 else depth
      let mode := if c = '\'' then .single else if c = '"' then .double else .plain
      (readNested opens closes mode depth rest).map fun (a, b) => (c :: a, b)

def readBackquoted (quoted : Bool) : List Char → Option (List Char × List Char)
  | [] => none
  | '\x60' :: rest => some ([], rest)
  | '\\' :: c :: rest =>
    let bare := c = '\x60' ∨ c = '\\' ∨ c = '$' ∨ (quoted ∧ c = '"')
    (readBackquoted quoted rest).map fun (a, b) => (if bare then c :: a else '\\' :: c :: a, b)
  | c :: rest => (readBackquoted quoted rest).map fun (a, b) => (c :: a, b)

def splitName (text : List Char) : List Char × List Char :=
  match text with
  | c :: rest =>
    if isNameStart c then (text.takeWhile isNameChar, text.dropWhile isNameChar)
    else if isDigit c then (text.takeWhile isDigit, text.dropWhile isDigit)
    else if isSpecialParameter c then ([c], rest)
    else ([], text)
  | [] => ([], [])

def splitChange (text : List Char) : Option (Change × List Char) :=
  match text with
  | ':' :: '-' :: word => some (.default true, word)
  | '-' :: word => some (.default false, word)
  | ':' :: '=' :: word => some (.assign true, word)
  | '=' :: word => some (.assign false, word)
  | ':' :: '+' :: word => some (.alternative true, word)
  | '+' :: word => some (.alternative false, word)
  | ':' :: '?' :: word => some (.complain true, word)
  | '?' :: word => some (.complain false, word)
  | '#' :: '#' :: word => some (.cutFront true, word)
  | '#' :: word => some (.cutFront false, word)
  | '%' :: '%' :: word => some (.cutBack true, word)
  | '%' :: word => some (.cutBack false, word)
  | _ => none

def closeSum (text : List Char) : Option (List Char × List Char) :=
  match readNested '(' ')' .plain 0 text with
  | some (inner, ')' :: rest) => some (inner, rest)
  | _ => none

mutual

def readWord : Nat → Bool → Mode → Word → List Char → Except String (Word × List Char)
  | 0, _, _, _, _ => .error "word too long"
  | _ + 1, _, .plain, w, [] => .ok (w, [])
  | _ + 1, true, .double, w, [] => .ok (w, [])
  | _ + 1, _, _, _, [] => .error "Unterminated quoted string"
  | fuel + 1, bare, .single, w, c :: rest =>
    if c = '\'' then readWord fuel bare .plain w rest
    else readWord fuel bare .single (addChar true c w) rest
  | fuel + 1, bare, .double, w, c :: rest =>
    if c = '"' ∧ !bare then readWord fuel bare .plain w rest
    else if c = '\\' then
      match rest with
      | '\n' :: tail => readWord fuel bare .double w tail
      | d :: tail =>
        if d = '"' ∨ d = '\\' ∨ d = '$' ∨ d = '\x60' ∨ (bare ∧ d = '\x7d') then
          readWord fuel bare .double (addChar true d w) tail
        else readWord fuel bare .double (addChar true c w) rest
      | [] => readWord fuel bare .double (addChar true c w) []
    else if c = '$' ∨ c = '\x60' then do
      match ← readDollar fuel true (c :: rest) with
      | some (piece, tail) => readWord fuel bare .double (w ++ [piece]) tail
      | none => readWord fuel bare .double (addChar true c w) rest
    else readWord fuel bare .double (addChar true c w) rest
  | fuel + 1, bare, .plain, w, c :: rest =>
    if isMeta c && !bare then .ok (w, c :: rest)
    else if c = '\'' then readWord fuel bare .single (w ++ [.text true []]) rest
    else if c = '"' then
      match readNested '"' '"' .plain 0 rest, bare with
      | some (inner, tail), true => do
        let (quoted, _) ← readWord fuel true .double [.text true []] inner
        readWord fuel bare .plain (w ++ quoted) tail
      | _, _ => readWord fuel bare .double (w ++ [.text true []]) rest
    else if c = '\\' then
      match rest with
      | '\n' :: tail => readWord fuel bare .plain w tail
      | d :: tail => readWord fuel bare .plain (addChar true d w) tail
      | [] => readWord fuel bare .plain (addChar false c w) []
    else if c = '$' ∨ c = '\x60' then do
      match ← readDollar fuel false (c :: rest) with
      | some (piece, tail) => readWord fuel bare .plain (w ++ [piece]) tail
      | none => readWord fuel bare .plain (addChar false c w) rest
    else readWord fuel bare .plain (addChar false c w) rest

def readDollar : Nat → Bool → List Char → Except String (Option (Piece × List Char))
  | 0, _, _ => .error "word too long"
  | _ + 1, quoted, '\x60' :: rest =>
    match readBackquoted quoted rest with
    | some (script, tail) => .ok (some (.output quoted script, tail))
    | none => .error "EOF in backquote substitution"
  | fuel + 1, quoted, '$' :: '(' :: '(' :: rest =>
    match closeSum rest with
    | some (inner, tail) => do
      let (expression, _) ← readWord fuel true .double [] inner
      .ok (some (.sum quoted expression, tail))
    | none => .error "Missing '))'"
  | _ + 1, quoted, '$' :: '(' :: rest =>
    match readNested '(' ')' .plain 0 rest with
    | some (script, tail) => .ok (some (.output quoted script, tail))
    | none => .error "end of file unexpected (expecting \")\")"
  | fuel + 1, quoted, '$' :: '\x7b' :: rest =>
    match readNested '\x7b' '\x7d' .plain 0 rest with
    | none => .error "Missing '\x7d'"
    | some (inner, tail) =>
      match splitName inner with
      | (['#'], c :: name) =>
        if (splitName (c :: name)).2.isEmpty then .ok (some (.length (c :: name), tail))
        else .ok (some (.invalid, tail))
      | (name, []) =>
        if name.isEmpty then .ok (some (.invalid, tail))
        else .ok (some (.parameter quoted name, tail))
      | (name, more) =>
        match splitChange more with
        | some (change, text) => do
          let mode := if quoted && !change.isCut then .double else .plain
          let (word, _) ← readWord fuel true mode [] text
          .ok (some (.changed quoted name change word, tail))
        | none => .ok (some (.invalid, tail))
  | _ + 1, quoted, '$' :: c :: rest =>
    if isSpecialParameter c then .ok (some (.parameter quoted [c], rest))
    else if isNameStart c then
      .ok (some (.parameter quoted ((c :: rest).takeWhile isNameChar),
        (c :: rest).dropWhile isNameChar))
    else .ok none
  | _ + 1, _, _ => .ok none

end

def signs : List (List Char) :=
  [";;", "&&", "||", ";", "&", "|", "(", ")"].map String.toList

def readRedirect (text : List Char) : Option (Redirect × List Char) :=
  match text with
  | '>' :: '&' :: rest => some (.duplicate, rest)
  | '>' :: '>' :: rest => some (.append, rest)
  | '>' :: '|' :: rest => some (.output, rest)
  | '>' :: rest => some (.output, rest)
  | '<' :: '&' :: rest => some (.duplicate, rest)
  | '<' :: rest => some (.input, rest)
  | _ => none

def natOf (digits : List Char) : Nat :=
  digits.foldl (fun n c => n * 10 + (c.toNat - '0'.toNat)) 0

def countLines (text : List Char) : Nat :=
  text.countP (· == '\n')

def readDocument (stripTabs : Bool) (mark : List Char) :
    Nat → List Char → List Char × List Char
  | 0, text => ([], text)
  | _, [] => ([], [])
  | fuel + 1, text =>
    let line := text.takeWhile (· != '\n')
    let rest := (text.dropWhile (· != '\n')).tail
    let line := if stripTabs then line.dropWhile (· == '\t') else line
    if line = mark then ([], rest)
    else
      let (body, tail) := readDocument stripTabs mark fuel rest
      (line ++ '\n' :: body, tail)

def markOf (w : Word) : List Char × Bool :=
  (w.flatMap fun
    | .text _ chars => chars
    | .parameter _ name => '$' :: name
    | _ => [],
   w.any fun
    | .text quoted _ => quoted
    | _ => false)

-- The tokens of a script. `skipped` counts lines of documents that the next line end passes.
def tokens : Nat → Nat → Nat → List Char → List Placed
  | 0, _, _, _ => []
  | _ + 1, line, _, [] => [⟨.finish, line⟩]
  | fuel + 1, line, skipped, c :: rest =>
    if isBlank c then tokens fuel line skipped rest
    else if c = '\n' then ⟨.lineEnd, line⟩ :: tokens fuel (line + 1 + skipped) 0 rest
    else if c = '#' then tokens fuel line skipped (rest.dropWhile (· != '\n'))
    else if c = '\\' ∧ rest.head? = some '\n' then tokens fuel (line + 1) skipped rest.tail
    else
      let text := c :: rest
      let digits := if isDigit c then [c] else []
      let descriptor := if digits.isEmpty then none else some (natOf digits)
      match text.drop digits.length with
      | '<' :: '<' :: after =>
        let stripTabs := after.head? == some '-'
        let after := if stripTabs then after.tail else after
        match readWord (text.length + 1) false .plain [] (after.dropWhile isBlank) with
        | .error reason => [⟨.broken reason, line⟩]
        | .ok (w, tail) =>
          let (mark, verbatim) := markOf w
          let here := tail.takeWhile (· != '\n')
          let (body, after) := readDocument stripTabs mark (text.length + 1)
            (tail.dropWhile (· != '\n')).tail
          let word := if verbatim then .ok ([.text true body], [])
            else readWord (text.length + 1) true .double [.text true []] body
          match word with
          | .error reason => [⟨.broken reason, line⟩]
          | .ok (w, _) =>
            ⟨.document descriptor w, line⟩ ::
              tokens fuel line (skipped + countLines body + 1) (here ++ '\n' :: after)
      | shorter =>
        match readRedirect shorter with
        | some (kind, tail) => ⟨.redirect descriptor kind, line⟩ :: tokens fuel line skipped tail
        | none =>
          match signs.find? (·.isPrefixOf text) with
          | some chars =>
            ⟨.sign chars, line⟩ :: tokens fuel line skipped (text.drop chars.length)
          | none =>
            match readWord (text.length + 1) false .plain [] text with
            | .error reason => [⟨.broken reason, line + countLines text⟩]
            | .ok (w, tail) =>
              let line := line + countLines (text.take (text.length - tail.length))
              ⟨.word w, line⟩ :: tokens fuel line skipped tail

end TestExplorer.Shell
