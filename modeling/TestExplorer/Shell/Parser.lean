import TestExplorer.Shell.Token

set_option autoImplicit false

namespace TestExplorer.Shell

inductive Redirection where
  | stream (descriptor : Option Nat) (kind : Redirect) (target : Word)
  | document (descriptor : Option Nat) (w : Word)

structure Simple where
  line : Nat
  words : List Word
  redirections : List Redirection

inductive Join where
  | always
  | ifSucceeded
  | ifFailed
  deriving DecidableEq

inductive Command where
  | simple (s : Simple)
  | choose (subject : Word) (arms : List (List Word × List (Join × Command)))
  | branch (condition yes no : List (Join × Command))
  | each (name : List Char) (words : Option (List Word)) (body : List (Join × Command))
  | repeated (succeeds : Bool) (condition body : List (Join × Command))
  | group (body : List (Join × Command))
  | apart (body : List (Join × Command))
  | background (body : List (Join × Command))
  | piped (first second : Command)
  | inverted (command : Command)
  | redirected (line : Nat) (command : Command) (redirections : List Redirection)
  | define (name : List Char) (body : Command)

-- Each command with the sign that joins it to the one before.
abbrev Script := List (Join × Command)

structure SyntaxError where
  line : Nat
  reason : String

abbrev Parse := Except SyntaxError

def reserved? (w : Word) : Option String :=
  match w with
  | [.text false chars] => some (String.ofList chars)
  | _ => none

def isSign (chars : String) (t : Token) : Bool :=
  match t with
  | .sign s => s == chars.toList
  | _ => false

def isKeyword (name : String) (t : Token) : Bool :=
  match t with
  | .word w => reserved? w == some name
  | _ => false

def isLineEnd (t : Token) : Bool :=
  match t with
  | .lineEnd => true
  | _ => false

def isFinish (t : Token) : Bool :=
  match t with
  | .finish => true
  | _ => false

def skipLineEnds : List Placed → List Placed
  | [] => []
  | t :: rest => if isLineEnd t.token then skipLineEnds rest else t :: rest

def closers : List String :=
  ["then", "else", "elif", "fi", "esac", "do", "done", "\x7d"]

def forbidden : List String :=
  "in" :: closers

def endsList (t : Token) : Bool :=
  isSign ";;" t || isSign ")" t || closers.any (isKeyword · t)

def Token.shown (t : Token) : String :=
  match t with
  | .word w =>
    match reserved? w with
    | some name => if forbidden.contains name then "\"" ++ name ++ "\"" else "word"
    | none => "word"
  | .sign chars => "\"" ++ String.ofList chars ++ "\""
  | .lineEnd => "newline"
  | .redirect _ _ => "redirection"
  | .document _ _ => "redirection"
  | .broken _ => "word"
  | .finish => "end of file"

def unexpected (ts : List Placed) (expecting : Option String := none) : SyntaxError :=
  match ts with
  | ⟨.broken reason, line⟩ :: _ => ⟨line, reason⟩
  | t :: _ =>
    let hint := match expecting with
      | some sign => " (expecting \"" ++ sign ++ "\")"
      | none => ""
    ⟨if isLineEnd t.token then t.line + 1 else t.line, t.token.shown ++ " unexpected" ++ hint⟩
  | [] => ⟨1, "end of file unexpected"⟩

def expect (name : String) (ts : List Placed) : Parse (List Placed) :=
  match ts with
  | t :: rest =>
    if isKeyword name t.token || isSign name t.token then .ok rest
    else .error (unexpected ts (some name))
  | [] => .error (unexpected [])

def readRedirections : List Placed → Parse (List Redirection × List Placed)
  | ⟨.redirect descriptor kind, _⟩ :: ⟨.word target, _⟩ :: rest => do
    let (more, rest) ← readRedirections rest
    pure (.stream descriptor kind target :: more, rest)
  | ⟨.redirect _ _, _⟩ :: ts => .error (unexpected ts)
  | ⟨.document descriptor w, _⟩ :: rest => do
    let (more, rest) ← readRedirections rest
    pure (.document descriptor w :: more, rest)
  | ts => .ok ([], ts)

def readSimple (s : Simple) : List Placed → Parse (Simple × List Placed)
  | ⟨.word w, _⟩ :: rest => readSimple { s with words := s.words ++ [w] } rest
  | ⟨.redirect descriptor kind, _⟩ :: ⟨.word target, _⟩ :: rest =>
    readSimple { s with redirections := s.redirections ++ [.stream descriptor kind target] } rest
  | ⟨.redirect _ _, _⟩ :: ts => .error (unexpected ts)
  | ⟨.document descriptor w, _⟩ :: rest =>
    readSimple { s with redirections := s.redirections ++ [.document descriptor w] } rest
  | ts => .ok (s, ts)

def readPatterns : List Placed → Parse (List Word × List Placed)
  | ⟨.word w, _⟩ :: ⟨.sign ['|'], _⟩ :: rest => do
    let (patterns, rest) ← readPatterns rest
    pure (w :: patterns, rest)
  | ⟨.word w, _⟩ :: ⟨.sign [')'], _⟩ :: rest => .ok ([w], rest)
  | ⟨.word _, _⟩ :: ts => .error (unexpected ts (some ")"))
  | ts => .error (unexpected ts)

def readWords : List Placed → List Word × List Placed
  | ⟨.word w, _⟩ :: rest =>
    let (words, rest) := readWords rest
    (w :: words, rest)
  | ts => ([], ts)

def readJoin : List Placed → Option (Join × List Placed)
  | t :: rest =>
    if isSign "&&" t.token then some (.ifSucceeded, skipLineEnds rest)
    else if isSign "||" t.token then some (.ifFailed, skipLineEnds rest)
    else none
  | [] => none

def variableName (w : Word) (line : Nat) : Parse (List Char) :=
  match w with
  | [.text false (c :: rest)] =>
    if isNameStart c && rest.all isNameChar then .ok (c :: rest)
    else .error ⟨line, "Bad for loop variable"⟩
  | _ => .error ⟨line, "Bad for loop variable"⟩

def skipSeparator : List Placed → List Placed
  | t :: rest => skipLineEnds (if isSign ";" t.token then rest else t :: rest)
  | [] => []

mutual

def readList : Nat → Bool → List Placed → Parse (Script × List Placed)
  | 0, _, ts => .error (unexpected ts)
  | fuel + 1, mayBeEmpty, ts =>
    match skipLineEnds ts with
    | [] => .error (unexpected [])
    | t :: rest =>
      if endsList t.token || isFinish t.token then
        if mayBeEmpty || isFinish t.token then .ok ([], t :: rest) else .error (unexpected (t :: rest))
      else do
        let (chain, rest) ← readChain fuel .always (t :: rest)
        match rest with
        | s :: more =>
          if isSign "&" s.token then do
            let (others, rest) ← readList fuel true more
            pure ((.always, .background chain) :: others, rest)
          else if isSign ";" s.token || isLineEnd s.token then do
            let (others, rest) ← readList fuel true more
            pure (chain ++ others, rest)
          else pure (chain, rest)
        | [] => pure (chain, [])

def readChain : Nat → Join → List Placed → Parse (Script × List Placed)
  | 0, _, ts => .error (unexpected ts)
  | fuel + 1, join, ts => do
    let (command, rest) ← readPipeline fuel ts
    match readJoin rest with
    | some (next, rest) => do
      let (more, rest) ← readChain fuel next rest
      pure ((join, command) :: more, rest)
    | none => pure ([(join, command)], rest)

def readPipeline : Nat → List Placed → Parse (Command × List Placed)
  | 0, ts => .error (unexpected ts)
  | fuel + 1, ts =>
    match ts with
    | t :: rest =>
      if isKeyword "!" t.token then do
        let (command, rest) ← readPipeline fuel rest
        pure (.inverted command, rest)
      else do
        let (command, rest) ← readCommand fuel (t :: rest)
        readPipes fuel command rest
    | [] => .error (unexpected [])

def readPipes : Nat → Command → List Placed → Parse (Command × List Placed)
  | 0, _, ts => .error (unexpected ts)
  | fuel + 1, first, ts =>
    match ts with
    | t :: rest =>
      if isSign "|" t.token then do
        let (second, rest) ← readCommand fuel (skipLineEnds rest)
        readPipes fuel (.piped first second) rest
      else .ok (first, t :: rest)
    | [] => .ok (first, [])

def readCommand : Nat → List Placed → Parse (Command × List Placed)
  | 0, ts => .error (unexpected ts)
  | fuel + 1, ts =>
    match ts with
    | [] => .error (unexpected [])
    | t :: rest =>
      match readCompound fuel t rest with
      | some parsed => do
        let (command, rest) ← parsed
        let (redirections, rest) ← readRedirections rest
        if redirections.isEmpty then pure (command, rest)
        else pure (.redirected t.line command redirections, rest)
      | none =>
        if endsList t.token || isKeyword "in" t.token then .error (unexpected (t :: rest))
        else do
          let (s, rest) ← readSimple ⟨t.line, [], []⟩ (t :: rest)
          match s.words, s.redirections, rest with
          | [], [], _ => throw (unexpected rest)
          | [[.text false name]], [], ⟨.sign ['('], _⟩ :: rest => do
            let rest ← expect ")" rest
            let (body, rest) ← readCommand fuel (skipLineEnds rest)
            pure (.define name body, rest)
          | _, _, _ => pure (.simple s, rest)

def readCompound : Nat → Placed → List Placed → Option (Parse (Command × List Placed))
  | 0, _, _ => none
  | fuel + 1, t, rest =>
    if isKeyword "\x7b" t.token then some do
      let (body, rest) ← readList fuel false rest
      pure (.group body, ← expect "\x7d" rest)
    else if isSign "(" t.token then some do
      let (body, rest) ← readList fuel false rest
      pure (.apart body, ← expect ")" rest)
    else if isKeyword "case" t.token then some do
      match rest with
      | ⟨.word subject, _⟩ :: rest => do
        let rest ← expect "in" (skipLineEnds rest)
        let (arms, rest) ← readArms fuel (skipLineEnds rest)
        pure (.choose subject arms, rest)
      | ts => throw (unexpected ts)
    else if isKeyword "if" t.token then some (readBranch fuel rest)
    else if isKeyword "while" t.token then some (readLoop fuel true rest)
    else if isKeyword "until" t.token then some (readLoop fuel false rest)
    else if isKeyword "for" t.token then some do
      match rest with
      | ⟨.word w, line⟩ :: rest => do
        let name ← variableName w line
        let rest := skipLineEnds rest
        let (words, rest) ← match expect "in" rest with
          | .ok rest =>
            let (words, rest) := readWords rest
            match rest with
            | s :: _ =>
              if isSign ";" s.token || isLineEnd s.token then pure (some words, skipSeparator rest)
              else throw (unexpected rest)
            | [] => throw (unexpected [])
          | .error _ => pure (none, skipSeparator rest)
        let rest ← expect "do" rest
        let (body, rest) ← readList fuel false rest
        pure (.each name words body, ← expect "done" rest)
      | ts => throw (unexpected ts)
    else none

def readLoop : Nat → Bool → List Placed → Parse (Command × List Placed)
  | 0, _, ts => .error (unexpected ts)
  | fuel + 1, succeeds, ts => do
    let (condition, rest) ← readList fuel false ts
    let rest ← expect "do" rest
    let (body, rest) ← readList fuel false rest
    pure (.repeated succeeds condition body, ← expect "done" rest)

def readArms : Nat → List Placed → Parse (List (List Word × Script) × List Placed)
  | 0, ts => .error (unexpected ts)
  | fuel + 1, ts =>
    match ts with
    | [] => .error (unexpected [])
    | t :: rest =>
      if isKeyword "esac" t.token then .ok ([], rest)
      else do
        let start := if isSign "(" t.token then rest else t :: rest
        let (patterns, rest) ← readPatterns start
        let (body, rest) ← readList fuel true rest
        match rest with
        | s :: more =>
          if isKeyword "esac" s.token then pure ([(patterns, body)], more)
          else do
            let more ← expect ";;" (s :: more)
            let (arms, rest) ← readArms fuel (skipLineEnds more)
            pure ((patterns, body) :: arms, rest)
        | [] => throw (unexpected [])

def readBranch : Nat → List Placed → Parse (Command × List Placed)
  | 0, ts => .error (unexpected ts)
  | fuel + 1, ts => do
    let (condition, rest) ← readList fuel false ts
    let rest ← expect "then" rest
    let (yes, rest) ← readList fuel false rest
    match rest with
    | t :: more =>
      if isKeyword "elif" t.token then do
        let (no, rest) ← readBranch fuel more
        pure (.branch condition yes [(.always, no)], rest)
      else if isKeyword "else" t.token then do
        let (no, rest) ← readList fuel false more
        pure (.branch condition yes no, ← expect "fi" rest)
      else pure (.branch condition yes [], ← expect "fi" (t :: more))
    | [] => throw (unexpected [])

end

def readLine : Nat → List Placed → Parse (Script × List Placed)
  | 0, ts => .error (unexpected ts)
  | fuel + 1, ts => do
    let (chain, rest) ← readChain (8 * ts.length + 8) .always ts
    match rest with
    | t :: more =>
      let background := isSign "&" t.token
      let chain := if background then [(.always, .background chain)] else chain
      if isLineEnd t.token then pure (chain, more)
      else if isFinish t.token then pure (chain, t :: more)
      else if background || isSign ";" t.token then
        match more with
        | s :: after =>
          if isLineEnd s.token then pure (chain, after)
          else if isFinish s.token then pure (chain, more)
          else do
            let (others, rest) ← readLine fuel more
            pure (chain ++ others, rest)
        | [] => pure (chain, [])
      else throw (unexpected rest)
    | [] => pure (chain, [])

def nextLine (ts : List Placed) : Parse (Option (Script × List Placed)) :=
  match skipLineEnds ts with
  | [] => .ok none
  | t :: rest =>
    if isFinish t.token then .ok none
    else (readLine (ts.length + 1) (t :: rest)).map some

end TestExplorer.Shell
