import TestExplorer.Path
import TestExplorer.Server.Addresses
import TestExplorer.Server.Percent
import TestExplorer.Text.Search

set_option autoImplicit false

namespace TestExplorer

-- Kept in one normal form: scheme and host in lower case, dots in the path resolved, and what may not
-- stand in a place escaped there.
structure Uri where
  scheme : String
  -- What stands between two slashes and the path, if anything can.
  authority : Option String := none
  path : String
  -- A path that has no names, as in `untitled:one`.
  isOpaque : Bool := false
  query : Option String := none
  fragment : Option String := none
  deriving DecidableEq

namespace Uri

def render (u : Uri) : String :=
  u.scheme ++ ":" ++
    (match u.authority with
      | some authority => "//" ++ authority
      | none => "") ++
    u.path ++
    (match u.query with
      | some query => "?" ++ query
      | none => "") ++
    (match u.fragment with
      | some fragment => "#" ++ fragment
      | none => "")

inductive Kind where
  | file
  -- Schemes of the web, which always have a host.
  | web
  | other
  deriving DecidableEq

def webPorts : List (String × List Char) :=
  [("http", ['8', '0']), ("https", ['4', '4', '3']), ("ws", ['8', '0']),
    ("wss", ['4', '4', '3']), ("ftp", ['2', '1'])]

def Kind.ofScheme (scheme : String) : Kind :=
  if scheme = "file" then .file
  else if webPorts.any (·.1 = scheme) then .web
  else .other

-- A backslash parts names too, unless the scheme is unknown.
def Kind.parts (k : Kind) (c : Char) : Bool :=
  c == '/' || (c == '\\' && k ≠ .other)

def isSchemeChar (c : Char) : Bool :=
  c.isAlphanum || c == '+' || c == '-' || c == '.'

def splitScheme? (text : List Char) : Option (String × List Char) :=
  match text with
  | [] => none
  | first :: _ =>
    if first.isAlpha then
      match text.span isSchemeChar with
      | (scheme, ':' :: rest) => some (String.ofList (scheme.map Char.toLower), rest)
      | _ => none
    else none

def splitWhere (isBreak : Char → Bool) : List Char → List (List Char)
  | [] => [[]]
  | c :: rest =>
    if isBreak c then [] :: splitWhere isBreak rest
    else match splitWhere isBreak rest with
      | [] => [[c]]
      | part :: more => (c :: part) :: more

def isSingleDot (name : List Char) : Bool :=
  [".", "%2e"].contains (String.ofList (name.map Char.toLower))

def isDoubleDot (name : List Char) : Bool :=
  ["..", ".%2e", "%2e.", "%2e%2e"].contains (String.ofList (name.map Char.toLower))

def isDrive : List Char → Bool
  | [letter, mark] => letter.isAlpha && (mark == ':' || mark == '|')
  | _ => false

def withColon : List Char → List Char
  | letter :: _ => [letter, ':']
  | [] => []

-- Names with the dots resolved, the last name first. A drive at the start of a file's path is not
-- left.
def resolveDots (k : Kind) (above : List (List Char)) : List (List Char) → List (List Char)
  | [] => above
  | name :: rest =>
    let close (names : List (List Char)) : List (List Char) :=
      if rest.isEmpty then [] :: names else names
    if isDoubleDot name then
      let left := match above with
        | [drive] => if k = .file ∧ isDrive drive then [drive] else []
        | _ => above.drop 1
      resolveDots k (close left) rest
    else if isSingleDot name then resolveDots k (close above) rest
    else if k = .file ∧ isDrive name ∧ above.isEmpty then
      resolveDots k (withColon name :: above) rest
    else resolveDots k (Percent.encodeText Percent.inPath name :: above) rest

def dropEmptyStart : List (List Char) → List (List Char)
  | [] :: name :: rest => dropEmptyStart (name :: rest)
  | names => names

def pathOf (k : Kind) (text : List Char) : String :=
  let names := (resolveDots k [] (splitWhere k.parts text)).reverse
  let names := if k = .file then dropEmptyStart names else names
  String.ofList ('/' :: List.intercalate ['/'] names)

def dropSeparator (k : Kind) : List Char → List Char
  | c :: rest => if k.parts c then rest else c :: rest
  | [] => []

def isForbiddenInHost (c : Char) : Bool :=
  c.toNat ≤ 0x20 || c.toNat == 0x7F || "#/:<>?@[\\]^|%".toList.contains c

def hostOf? (text : List Char) : Option String :=
  match text with
  | '[' :: _ => some (String.ofList (text.map Char.toLower))
  | _ =>
    let plain := (Text.ofBytes (Percent.decode text)).toList.map Char.toLower
    if plain.any isForbiddenInHost then none else some (String.ofList plain)

def cutLast? (mark : Char) (text : List Char) : Option (List Char × List Char) :=
  (Text.cut? [mark] text.reverse).map fun (after, before) => (before.reverse, after.reverse)

def portOf? (scheme : String) (digits : List Char) : Option String :=
  if digits.all Char.isDigit then
    if digits.isEmpty ∨ webPorts.contains (scheme, digits) then some ""
    else (Text.unsigned? 65536 digits).map fun n => ":" ++ Text.decimal n
  else none

def authorityOf? (k : Kind) (scheme : String) (text : List Char) : Option String := do
  let (user, place) := match cutLast? '@' text with
    | some (user, place) => (String.ofList user ++ "@", place)
    | none => ("", text)
  let (host, port) := match cutLast? ':' place with
    | some (host, port) => if port.contains ']' then (place, []) else (host, port)
    | none => (place, [])
  let host ← hostOf? host
  let port ← portOf? scheme port
  if host.isEmpty then
    if k = .web ∨ ¬ user.isEmpty ∨ ¬ port.isEmpty then none else some ""
  else some (user ++ host ++ port)

def fileAuthority? (text : List Char) : Option String :=
  (hostOf? text).map fun host => if host = "localhost" then "" else host

def ofFile? (text : List Char) : Option Uri :=
  match text with
  | a :: b :: rest =>
    if Kind.parts .file a && Kind.parts .file b then
      let (host, after) := rest.span fun c => !Kind.parts .file c
      if isDrive host then some { scheme := "file", authority := some "", path := pathOf .file rest }
      else (fileAuthority? host).map fun authority =>
        { scheme := "file", authority := some authority
          path := pathOf .file (dropSeparator .file after) }
    else some { scheme := "file", authority := some "", path := pathOf .file (dropSeparator .file text) }
  | _ => some { scheme := "file", authority := some "", path := pathOf .file (dropSeparator .file text) }

def ofWeb? (scheme : String) (text : List Char) : Option Uri :=
  let (place, after) := (text.dropWhile (Kind.parts .web)).span fun c => !Kind.parts .web c
  (authorityOf? .web scheme place).map fun authority =>
    { scheme, authority := some authority, path := pathOf .web (dropSeparator .web after) }

def ofOther? (scheme : String) (text : List Char) : Option Uri :=
  match text with
  | '/' :: '/' :: rest =>
    let (place, after) := rest.span (· != '/')
    (authorityOf? .other scheme place).map fun authority =>
      { scheme, authority := some authority
        path := if after.isEmpty then "" else pathOf .other (dropSeparator .other after) }
  | '/' :: rest => some { scheme, path := pathOf .other rest }
  | _ => some { scheme, path := String.ofList (Percent.encodeText Percent.isControl text)
                isOpaque := true }

def splitOff (mark : Char) (text : List Char) : List Char × Option (List Char) :=
  match Text.cut? [mark] text with
  | some (before, after) => (before, some after)
  | none => (text, none)

def isTrimmed (c : Char) : Bool :=
  c.toNat ≤ 0x20

-- Line breaks and tabs do not count anywhere, blanks not at the ends.
def cleaned (text : List Char) : List Char :=
  let kept := text.filter fun c => c != '\t' && c != '\n' && c != '\r'
  ((kept.dropWhile isTrimmed).reverse.dropWhile isTrimmed).reverse

def parse? (text : String) : Option Uri := do
  let (scheme, rest) ← splitScheme? (cleaned text.toList)
  let k := Kind.ofScheme scheme
  let (rest, fragment) := splitOff '#' rest
  let (rest, query) := splitOff '?' rest
  let u ← match k with
    | .file => ofFile? rest
    | .web => ofWeb? scheme rest
    | .other => ofOther? scheme rest
  let inQuery := if k = .other then Percent.inQuery else Percent.inSpecialQuery
  some { u with
    query := query.map fun q => String.ofList (Percent.encodeText inQuery q)
    fragment := fragment.map fun f => String.ofList (Percent.encodeText Percent.inFragment f) }

def host (u : Uri) : String :=
  let text := (u.authority.getD "").toList
  let place := ((cutLast? '@' text).map (·.2)).getD text
  String.ofList (((cutLast? ':' place).map (·.1)).getD place)

def isLocal (u : Uri) : Bool :=
  u.host = "" || u.host = "localhost"

def isLetter (b : UInt8) : Bool :=
  (0x41 ≤ b && b ≤ 0x5A) || (0x61 ≤ b && b ≤ 0x7A)

-- A path that ends in a drive gets a separator.
def closeDrive (bytes : List UInt8) : List UInt8 :=
  match bytes.reverse with
  | mark :: letter :: _ :: _ =>
    if isLetter letter && (Percent.ofAscii ":|").contains mark then bytes ++ [slash] else bytes
  | _ => bytes

-- The path that an address on this host names. The scheme does not matter.
def toPath? (u : Uri) : Option Path :=
  match u.path.toList with
  | '/' :: rest =>
    if u.isOpaque || !u.isLocal then none
    else some ⟨closeDrive (slash :: Percent.decode rest)⟩
  | _ => none

def nameOf : Path.Component → Option (List UInt8)
  | .root => none
  | .here => some [dot]
  | .up => some [dot, dot]
  | .name bytes => some bytes

def ofPath? (p : Path) : Option Uri :=
  if p.isAbsolute then
    let names := p.components.filterMap nameOf
    let path := match names with
      | [] => ['/']
      | _ => names.flatMap fun name => '/' :: Percent.encode Percent.inSegment name
    some { scheme := "file", authority := some "", path := String.ofList path }
  else none

instance : Server.Addresses Uri where
  parse? := parse?
  render := render
  toPath? := toPath?
  ofPath? := ofPath?

end Uri

end TestExplorer
