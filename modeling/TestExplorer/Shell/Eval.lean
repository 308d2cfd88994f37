import TestExplorer.Shell.Builtins

/-!
The running of shell scripts. A run gathers what is printed on both streams, the time it takes and
the signals it sends to the process that started it; it may end by a signal of its own. A run that
takes too many steps counts as one that does not end.
-/

set_option autoImplicit false

namespace TestExplorer.Shell

structure Options where
  isCommand : Bool := false
  isInput : Bool := false
  strict : Bool := false
  traced : Bool := false
  needsSet : Bool := false
  idle : Bool := false
  rest : List (List Char) := []

def Options.set (o : Options) (flag : Char) : Option Options :=
  if flag = 'c' then some { o with isCommand := true }
  else if flag = 's' then some { o with isInput := true }
  else if flag = 'e' then some { o with strict := true }
  else if flag = 'u' then some { o with needsSet := true }
  else if flag = 'n' then some { o with idle := true }
  else if flag = 'x' then some { o with traced := true }
  else if "afiImvVEbp".toList.contains flag then some o
  else none

def readFlags (o : Options) : List Char → Except (List Char) Options
  | [] => .ok o
  | flag :: rest =>
    match o.set flag with
    | some o => readFlags o rest
    | none => .error ("Illegal option -".toList ++ [flag])

def readOptions (o : Options) : List (List Char) → Except (List Char) Options
  | ['-'] :: rest => .ok { o with rest }
  | ['-', '-'] :: rest => .ok { o with rest }
  | ['-', 'o'] :: name :: rest =>
    match State.optionLetter? name with
    | some flag =>
      match o.set flag with
      | some o => readOptions o rest
      | none => readOptions o rest
    | none => .error ("Illegal option -o ".toList ++ name)
  | ('-' :: flags) :: rest =>
    match readFlags o flags with
    | .ok o => readOptions o rest
    | .error reason => .error reason
  | ('+' :: _ :: _) :: rest => readOptions o rest
  | rest => .ok { o with rest }

def isShell (program : List Char) : Bool :=
  let name := plainName program
  name == "sh".toList || name == "dash".toList

def startDelay : Nat := 500000

def assignment? (w : Word) : Option (List Char × Word) :=
  match w with
  | .text false chars :: rest =>
    let name := chars.takeWhile isNameChar
    match chars.dropWhile isNameChar, name with
    | '=' :: value, c :: _ =>
      if isNameStart c then some (name, .text false value :: rest) else none
    | _, _ => none
  | _ => none

def splitAssignments : List Word → List (List Char × Word) × List Word
  | [] => ([], [])
  | w :: rest =>
    match assignment? w with
    | some assigned =>
      let (more, words) := splitAssignments rest
      (assigned :: more, words)
    | none => ([], w :: rest)

def Join.holds (j : Join) (s : State) : Bool :=
  match j with
  | .always => true
  | .ifSucceeded => s.status == 0
  | .ifFailed => s.status != 0

def isQuiet (body : Script) : Bool :=
  let leaves (redirections : List Redirection) : Bool :=
    redirections.any (·.isOutput 1) && redirections.any (·.isOutput 2)
  match body with
  | [(_, .simple c)] => leaves c.redirections
  | [(_, .redirected _ _ redirections)] => leaves redirections
  | _ => false

def isAskedAbout (rest : Script) : Bool :=
  match rest with
  | (.always, _) :: _ => false
  | [] => false
  | _ => true

namespace State

def afterBody (s : State) : State × Bool :=
  match s.flow with
  | .going => (s, true)
  | .broken n =>
    if n ≤ 1 then ({ s with flow := .going }, false)
    else ({ s with flow := .broken (n - 1) }, false)
  | .continued n =>
    if n ≤ 1 then ({ s with flow := .going }, true)
    else ({ s with flow := .continued (n - 1) }, false)
  | _ => (s, false)

def checkStrict (s : State) : State :=
  if s.strict && !s.tested && s.status != 0 && s.flow = .going then { s with flow := .exited }
  else s

def isUnset (s : State) (name : List Char) (emptyToo : Bool) : Bool :=
  match s.lookup? name with
  | some value => emptyToo && value.isEmpty
  | none => true

def demand (s : State) (name : List Char) : State × List Char :=
  match s.lookup? name with
  | some value => (s, value)
  | none =>
    if s.needsSet && !(name = ['@'] || name = ['*'] || name = ['!']) then
      (s.abort (name ++ ": parameter not set".toList), [])
    else (s, [])

def evalSum (s : State) (text : List Char) : State × List Char :=
  let outcome := do
    let e ← Expression.parse text
    e.eval { text := s.parameter }
  match outcome with
  | .ok (n, values) =>
    (values.assigned.reverse.foldl (fun s (name, n) => s.assign name (toString n).toList) s,
      (toString n).toList)
  | .error cause => (s.abort (cause.message text), [])

def tellKind (s : State) (name : List Char) : State :=
  let tell (s : State) (kind : String) : State := s.print (name ++ kind.toList ++ ['\n'])
  if (forbidden ++ ["if", "case", "for", "while", "until", "!", "\x7b"]).contains (String.ofList name) then
    tell s " is a shell keyword"
  else if s.functions.any (·.1 = name) then tell s " is a shell function"
  else if isBuiltin name then tell s " is a shell builtin"
  else if isShell name || (run? s.site [] name []).isSome then
    tell s (" is /usr/bin/" ++ String.ofList name)
  else (tell s ": not found").ended 127

-- Shows a command before it runs, where that has been asked for, on the streams that were there
-- before its redirections.
def traceThrough (s : State) (sinks : List (Nat × Sink)) (words : List (List Char)) : State :=
  if s.traced && !words.isEmpty then
    { { s with sinks }.printErr ("+ ".toList ++ joinWords words ++ ['\n']) with sinks := s.sinks }
  else s

def dieBy (s : State) (signal : Nat) : State :=
  if isIgnoredSignal signal then s
  else if isStopSignal signal then s.stuck
  else { s with flow := .killed signal }

def startShell (s : State) (o : Options) (name : List Char) (params : List (List Char)) : State :=
  { site := s.site, name, params, id := s.nextId, parent := s.id, self := s.nextId
    nextId := s.nextId + 1, vars := s.vars.filter fun (name, _) => s.exported.contains name
    exported := s.exported, strict := o.strict, traced := o.traced, needsSet := o.needsSet, sinks := s.sinks
    input := s.input, nanos := s.nanos, out := s.out, err := s.err, pipe := s.pipe
    traps := s.traps.filter (·.2.isEmpty) }

end State

mutual

def evalWord : Nat → State → Word → State × List Value
  | 0, s, _ => (s.stuck, [])
  | _ + 1, s, [] => (s, [])
  | fuel + 1, s, piece :: rest =>
    let (s, value) := evalPiece fuel s piece
    if s.flow ≠ .going then (s, [])
    else
      let (s, values) := evalWord fuel s rest
      (s, value :: values)

def evalPiece : Nat → State → Piece → State × Value
  | 0, s, _ => (s.stuck, ⟨true, []⟩)
  | _ + 1, s, .text quoted chars => (s, ⟨quoted, [chars]⟩)
  | _ + 1, s, .invalid => (s.abort "Bad substitution".toList, ⟨true, []⟩)
  | _ + 1, s, .parameter true ['@'] => (s, ⟨true, s.params⟩)
  | _ + 1, s, .parameter quoted name =>
    let (s, value) := s.demand name
    (s, ⟨quoted, [value]⟩)
  | _ + 1, s, .length name =>
    let (s, value) := s.demand name
    (s, ⟨true, [shown value.length]⟩)
  | fuel + 1, s, .output quoted script =>
    let c := { s.copy.withSink 1 .pipe with pipe := [] }
    let c := endShell fuel (runText fuel { c with status := 0 } script)
    let text := ((collect c.pipe).reverse.dropWhile (· == '\n')).reverse
    let joined := s.join { c with pipe := s.pipe, nanos := c.finish, jobs := [] }
    ({ joined with status := s.status, substituted := some c.status }, ⟨quoted, [text]⟩)
  | fuel + 1, s, .sum quoted expression =>
    let (s, values) := evalWord fuel s expression
    let (s, text) := s.evalSum (textOf values)
    (s, ⟨quoted, [text]⟩)
  | fuel + 1, s, .changed quoted name change word =>
    let plain : Value := ⟨quoted, [s.parameter name]⟩
    let instead (s : State) : State × Value :=
      let (s, values) := evalWord fuel s word
      (s, ⟨quoted || values.any (·.quoted), [textOf values]⟩)
    match change with
    | .default emptyToo => if s.isUnset name emptyToo then instead s else (s, plain)
    | .alternative emptyToo =>
      if s.isUnset name emptyToo then (s, ⟨quoted, [[]]⟩) else instead s
    | .assign emptyToo =>
      if s.isUnset name emptyToo then
        let (s, value) := instead s
        (s.assign name value.text, value)
      else (s, plain)
    | .complain emptyToo =>
      if s.isUnset name emptyToo then
        let (s, value) := instead s
        let reason := if value.text.isEmpty then "parameter not set".toList else value.text
        (s.abort (name ++ ": ".toList ++ reason), value)
      else (s, plain)
    | .cutFront longest =>
      let (s, values) := evalWord fuel s word
      (s, ⟨quoted, [cutFront longest (patternOf values) plain.text]⟩)
    | .cutBack longest =>
      let (s, values) := evalWord fuel s word
      (s, ⟨quoted, [cutBack longest (patternOf values) plain.text]⟩)

def evalFields : Nat → State → List Word → State × List (List Char)
  | 0, s, _ => (s.stuck, [])
  | _ + 1, s, [] => (s, [])
  | fuel + 1, s, w :: rest =>
    let (s, values) := evalWord fuel s w
    if s.flow ≠ .going then (s, [])
    else
      let (s, fields) := evalFields fuel s rest
      (s, fieldsOfValues s.breaks values ++ fields)

def assignAll : Nat → State → List (List Char × Word) → State × List (List Char)
  | 0, s, _ => (s.stuck, [])
  | _ + 1, s, [] => (s, [])
  | fuel + 1, s, (name, word) :: rest =>
    let (s, values) := evalWord fuel s word
    if s.flow ≠ .going then (s, [])
    else
      let (after, shown) := assignAll fuel (s.assign name (textOf values)) rest
      (after, (name ++ '=' :: textOf values) :: shown)

def redirect : Nat → State → List Redirection → State × Bool
  | 0, s, _ => (s.stuck, false)
  | _ + 1, s, [] => (s, true)
  | fuel + 1, s, .stream descriptor kind target :: rest =>
    let (s, values) := evalWord fuel s target
    if s.flow ≠ .going then (s, false)
    else match s.redirectStream descriptor kind (textOf values) with
      | (s, true) => redirect fuel s rest
      | (s, false) => (s, false)
  | fuel + 1, s, .document _ w :: rest =>
    let (s, values) := evalWord fuel s w
    if s.flow ≠ .going then (s, false) else redirect fuel { s with input := textOf values } rest

def runText : Nat → State → List Char → State
  | 0, s, _ => s.stuck
  | fuel + 1, s, text => runLines fuel s (tokens (2 * text.length + 2) 1 0 text)

def runLines : Nat → State → List Placed → State
  | 0, s, _ => s.stuck
  | fuel + 1, s, ts =>
    match nextLine ts with
    | .error e =>
      { s with line := e.line }.abort ("Syntax error: ".toList ++ e.reason.toList)
    | .ok none => s
    | .ok (some (script, rest)) =>
      let s := runScript fuel s script
      if s.flow = .going then runLines fuel s rest else s

def endShell : Nat → State → State
  | 0, s => s.stuck
  | fuel + 1, s =>
    let s := if s.flow = .going then takeSignals fuel s else s
    match s.flow with
    | .killed _ => s
    | .endless => s
    | _ =>
      match s.traps.find? (·.1 = 0) with
      | some (_, action) =>
        let after := runText fuel { s with flow := .going, traps := s.traps.filter (·.1 ≠ 0) } action
        if after.flow = .going then after.ended s.status else after
      | none => s

def deliver : Nat → State → Nat → State
  | 0, s, _ => s.stuck
  | fuel + 1, s, signal =>
    match s.traps.find? (·.1 = signal) with
    | some (_, action) =>
      if signal = 9 ∨ signal = 19 then s.dieBy signal
      else if action.isEmpty then s
      else
        let after := runText fuel s action
        if after.flow = .going then after.ended s.status else after
    | none => s.dieBy signal

def deliverAll : Nat → State → List Sent → State
  | 0, s, _ => s.stuck
  | _ + 1, s, [] => s
  | fuel + 1, s, sent :: rest =>
    if s.flow ≠ .going then s else deliverAll fuel (deliver fuel s sent.signal) rest

def takeSignals : Nat → State → State
  | 0, s => s.stuck
  | fuel + 1, s =>
    if s.signals.isEmpty || s.self ≠ s.id then s
    else
      let (due, others) := s.signals.partition fun sent => sent.target = s.id && sent.time ≤ s.nanos
      deliverAll fuel { s with signals := others } due

def killTargets : Nat → State → Nat → List (List Char) → State
  | 0, s, _, _ => s.stuck
  | _ + 1, s, _, [] => s
  | fuel + 1, s, signal, target :: rest =>
    if s.flow ≠ .going then s
    else if target.isEmpty || !target.all isDigit then
      s.fail ("kill: Illegal number: ".toList ++ target)
    else
      let id := natOf target
      let s :=
        if id = s.self ∨ id = 0 then deliver fuel s signal
        else if id = s.id then { s with signals := s.signals ++ [⟨s.nanos, id, signal⟩] }
        else if s.jobs.any (·.id = id) then
          if isIgnoredSignal signal then s else s.endJob id signal
        else if id = s.parent then { s with signals := s.signals ++ [⟨s.nanos, id, signal⟩] }
        else (s.complain "kill: No such process\n".toList).ended 1
      killTargets fuel s signal rest

def runNamed : Nat → State → List Char → List (List Char) → State
  | 0, s, _, _ => s.stuck
  | fuel + 1, s, name, args =>
    match s.functions.find? (·.1 = name) with
    | some (_, body) =>
      let inner := { s with params := args, loops := 0, outer := [], isFunction := true }
      let after := (runCommand fuel inner body).leaveFunction s
      if after.flow = .returned then { after with flow := .going } else after
    | none => runBuiltin fuel s name args

def runBuiltin : Nat → State → List Char → List (List Char) → State
  | 0, s, _, _ => s.stuck
  | fuel + 1, s, name, args =>
    match String.ofList name with
    | ":" => s.ended 0
    | "true" => s.ended 0
    | "false" => s.ended 1
    | "echo" => s.printOrFail "echo" (echo args)
    | "printf" => s.printFormat args
    | "test" => s.ask name args
    | "[" => s.ask name args
    | "exit" => s.exit args
    | "return" => s.giveBack args
    | "break" => s.breakLoop args
    | "continue" => s.continueLoop args
    | "shift" => s.shift args
    | "export" => s.declare State.markExported (args.filter (· ≠ ['-', 'p']))
    | "readonly" => s.declare State.markFixed (args.filter (· ≠ ['-', 'p']))
    | "local" =>
      if s.isFunction then
        (args.foldl (fun s word => s.markLocal (splitAssignment word).1) s).declare
          (fun s _ => s) args
      else s.abort "local: not in a function".toList
    | "unset" => s.unset args
    | "set" => s.setOptions args
    | "trap" => s.setTraps (if args.head? = some ['-', '-'] then args.tail else args)
    | "wait" => s.wait args
    | "read" => s.read args
    | "cd" => s.changeDir args
    | "pwd" => s.printOrFail "pwd" (ofBytes (FileSystem.pathOf s.site.here).bytes ++ ['\n'])
    | "umask" =>
      if args.isEmpty then s.printOrFail "umask" "0022\n".toList else s.ended 0
    | "ulimit" => s.ended 0
    | "times" => s.ended 0
    | "hash" => s.ended 0
    | "alias" => s.ended 0
    | "eval" =>
      let after := runText fuel { s.ended 0 with within := "eval: ".toList } (joinWords args)
      { after with within := s.within }
    | "." =>
      match args with
      | [] => s.ended 0
      | file :: _ =>
        if !file.contains '/' then s.abort (".: ".toList ++ file ++ ": not found".toList)
        else match s.site.fs.read s.site.here ⟨toBytes file⟩ with
          | .ok bytes =>
            let inner := { s.ended 0 with within := file ++ ": ".toList }
            let after : State := { runText fuel inner (ofBytes bytes) with within := s.within }
            if after.flow = .returned then { after with flow := .going } else after
          | .error cause =>
            s.abort (".: cannot open ".toList ++ file ++ ": ".toList ++ openFailure cause "No such file")
    | "command" =>
      match args with
      | [] => s.ended 0
      | ['-', 'v'] :: names =>
        match names with
        | [] => s.ended 0
        | name :: _ =>
          if s.functions.any (·.1 = name) || isBuiltin name then s.printOrFail "command" (name ++ ['\n'])
          else if isShell name || (run? s.site [] name []).isSome then
            s.printOrFail "command" ("/usr/bin/".toList ++ name ++ ['\n'])
          else s.ended 127
      | inner :: rest => runBuiltin fuel s inner rest
    | "kill" =>
      match killRequest args with
      | .send signal targets => killTargets fuel (s.ended 0) signal targets
      | .name signal =>
        let name := ((signalNames.find? (·.2 = signal)).map (·.1)).getD ""
        s.printOrFail "kill" (name.toList ++ ['\n'])
      | .noSignal => s.fail "kill: No arg for -s option".toList
      | .usage =>
        s.fail ("kill: Usage: kill [-s sigspec | -signum | -sigspec] [pid | job]... or\n" ++
          "kill -l [exitstatus]").toList
      | .illegal option => s.fail ("kill: Illegal option -".toList ++ option)
    | "type" => (args.foldl (fun s name => s.tellKind name) (s.ended 0))
    | _ => runProgram fuel s false name args

-- A program, or a shell, in a process of its own; `inPlace` of the shell when it is the last thing
-- that the shell does.
def runProgram : Nat → State → Bool → List Char → List (List Char) → State
  | 0, s, _, _, _ => s.stuck
  | fuel + 1, s, inPlace, name, args =>
    if isShell name then
      let inner := runShell fuel s name args
      let joined := { s.adopt inner with status := inner.status, jobs := s.jobs ++ inner.jobs }
      match inner.flow with
      | .killed signal =>
        if inPlace then { joined with flow := .killed signal }
        else (joined.printErr (deathNotice signal)).ended (128 + signal)
      | .endless => { joined with flow := .endless }
      | _ => joined
    else match run? s.site s.input name args with
      | some effect =>
        let s := (s.print effect.out).printErr effect.err
        { s with
          status := effect.status, input := effect.input, nanos := s.nanos + effect.nanos }
      | none =>
        let about := if inPlace then "exec: ".toList ++ name else name
        let isPath := name.contains '/'
        if name.isEmpty then (s.complain (about ++ ": Permission denied".toList)).ended 127
        else if isPath && (s.site.fs.stat s.site.here ⟨toBytes name⟩).toOption.isSome then
          (s.complain (about ++ ": Permission denied".toList)).ended 126
        else (s.complain (about ++ ": not found".toList)).ended 127

def runShell : Nat → State → List Char → List (List Char) → State
  | 0, s, _, _ => s.stuck
  | fuel + 1, s, name, args =>
    let refuse (reason : List Char) : State :=
      let c := s.startShell {} name []
      (c.printErr (name ++ ": 0: ".toList ++ reason ++ ['\n'])).ended 2
    match readOptions {} args with
    | .error reason => refuse reason
    | .ok o =>
      if o.isCommand then
        match o.rest with
        | [] => refuse "-c requires an argument".toList
        | script :: rest =>
          let c := s.startShell o (rest.head?.getD name) rest.tail
          if o.idle then c else endShell fuel (runText fuel c script)
      else if o.isInput || o.rest.isEmpty then
        let c := s.startShell o name o.rest
        if o.idle then c else endShell fuel (runText fuel { c with input := [] } s.input)
      else
        let file := o.rest.head?.getD []
        match s.site.fs.read s.site.here ⟨toBytes file⟩ with
        | .ok bytes =>
          let c := s.startShell o file o.rest.tail
          if o.idle then c else endShell fuel (runText fuel c (ofBytes bytes))
        | .error .isDirectory => s.startShell o file o.rest.tail
        | .error cause =>
          refuse ("cannot open ".toList ++ file ++ ": ".toList ++ openFailure cause "No such file")

def runSimple : Nat → State → Simple → State
  | 0, s, _ => s.stuck
  | fuel + 1, s, c =>
    let (assigned, words) := splitAssignments c.words
    let (s, fields) := evalFields fuel { s with line := c.line, substituted := none } words
    if s.flow ≠ .going then s
    else
      let before := s
      match redirect fuel s c.redirections, fields with
      | (s, false), name :: _ =>
        let s := s.restoreStreams before c.redirections
        if isSpecial name && s.flow = .going then { s with flow := .exited } else s
      | (s, false), [] => s.restoreStreams before c.redirections
      | (s, true), [] =>
        let (s, shown) := assignAll fuel s assigned
        let s := (s.traceThrough before.sinks shown).restoreStreams before c.redirections
        if s.flow = .going then s.ended (s.substituted.getD 0) else s
      | (s, true), name :: args =>
        let (s, shown) := assignAll fuel s assigned
        let s := s.traceThrough before.sinks (shown ++ fields)
        if s.flow ≠ .going then s
        else if name = "exec".toList then
          match args with
          | [] => s.ended 0
          | inner :: rest =>
            let after := runProgram fuel s true inner rest
            if after.flow = .going then { after with flow := .exited, traps := [] } else after
        else
          let names := assigned.map (·.1)
          let after := runNamed fuel { s with exported := names ++ s.exported } name args
          let after := after.restoreStreams before c.redirections
          if isSpecial name || names.isEmpty then after
          else
            { after with
              exported := before.exported
              vars := before.vars.filter (names.contains ·.1) ++
                after.vars.filter (!names.contains ·.1) }

def runScript : Nat → State → Script → State
  | 0, s, _ => s.stuck
  | _ + 1, s, [] => s
  | fuel + 1, s, (join, command) :: rest =>
    let s := takeSignals fuel s
    if s.flow ≠ .going then s
    else if join.holds s then
      let after := runCommand fuel { s with tested := s.tested || isAskedAbout rest } command
      runScript fuel { after with tested := s.tested } rest
    else runScript fuel s rest

def runCommand : Nat → State → Command → State
  | 0, s, _ => s.stuck
  | fuel + 1, s, .simple c => (runSimple fuel s c).checkStrict
  | fuel + 1, s, .group body => runScript fuel s body
  | fuel + 1, s, .apart body =>
    (s.join (endShell fuel (runScript fuel s.copy body))).checkStrict
  | fuel + 1, s, .background body =>
    let start := { s.copy with input := [], nanos := s.nanos + startDelay }
    let c := endShell fuel (runScript fuel start body)
    let status := match c.flow with
      | .killed signal => 128 + signal
      | _ => c.status
    let job : Job := ⟨c.self, c.finish, status, !isQuiet body, none⟩
    { s.adopt c with
      nanos := s.nanos, input := s.input, status := 0, lastJob := some c.self
      jobs := s.jobs ++ [job] }
  | fuel + 1, s, .piped first second =>
    let left := endShell fuel
      (runCommand fuel { s.copy.withSink 1 .pipe with pipe := [] } first)
    let middle := { s.adopt left with jobs := [], pipe := s.pipe, input := collect left.pipe }
    let right := endShell fuel (runCommand fuel middle.copy second)
    let joined := s.join { right with jobs := left.jobs ++ right.jobs, input := left.input }
    { joined with signals := s.signals ++ left.signals ++ right.signals }.checkStrict
  | fuel + 1, s, .inverted command =>
    let after := runCommand fuel { s with tested := true } command
    { after with tested := s.tested, status := if after.status = 0 then 1 else 0 }
  | fuel + 1, s, .redirected line command redirections =>
    match redirect fuel { s with line } redirections with
    | (after, false) => after.restoreStreams s redirections
    | (after, true) => (runCommand fuel after command).restoreStreams s redirections
  | _ + 1, s, .define name body =>
    { s with functions := (name, body) :: s.functions.filter (·.1 ≠ name), status := 0 }
  | fuel + 1, s, .branch condition yes no =>
    let after := { runScript fuel { s with tested := true } condition with tested := s.tested }
    if after.flow ≠ .going then after
    else if after.status = 0 then runScript fuel after yes
    else runScript fuel (after.ended 0) no
  | fuel + 1, s, .each name words body =>
    let (s, values) := match words with
      | some words => evalFields fuel s words
      | none => (s, s.params)
    if s.flow ≠ .going then s
    else
      let after := runEach fuel { s with loops := s.loops + 1, status := 0 } name values body
      { after with loops := s.loops }
  | fuel + 1, s, .repeated succeeds condition body =>
    let after := runLoop fuel { s with loops := s.loops + 1 } succeeds condition body 0
    { after with loops := s.loops }
  | fuel + 1, s, .choose subject arms =>
    let (s, values) := evalWord fuel s subject
    if s.flow ≠ .going then s else runArms fuel (s.ended 0) (textOf values) arms

def runEach : Nat → State → List Char → List (List Char) → Script → State
  | 0, s, _, _, _ => s.stuck
  | _ + 1, s, _, [], _ => s
  | fuel + 1, s, name, value :: rest, body =>
    match (runScript fuel (s.assign name value) body).afterBody with
    | (s, true) => runEach fuel s name rest body
    | (s, false) => s

def runLoop : Nat → State → Bool → Script → Script → Nat → State
  | 0, s, _, _, _, _ => s.stuck
  | fuel + 1, s, succeeds, condition, body, status =>
    let asked := runScript fuel { s with tested := true } condition
    match { asked with tested := s.tested }.afterBody with
    | (s, false) => s
    | (s, true) =>
      if (s.status == 0) != succeeds then s.ended status
      else match (runScript fuel s body).afterBody with
        | (s, true) => runLoop fuel s succeeds condition body s.status
        | (s, false) => s

def runArms : Nat → State → List Char → List (List Word × Script) → State
  | 0, s, _, _ => s.stuck
  | _ + 1, s, _, [] => s
  | fuel + 1, s, subject, (patterns, body) :: rest =>
    match anyFits fuel s subject patterns with
    | (s, true) => runScript fuel s body
    | (s, false) => if s.flow ≠ .going then s else runArms fuel s subject rest

def anyFits : Nat → State → List Char → List Word → State × Bool
  | 0, s, _, _ => (s.stuck, false)
  | _ + 1, s, _, [] => (s, false)
  | fuel + 1, s, subject, pattern :: rest =>
    let (s, values) := evalWord fuel s pattern
    if s.flow ≠ .going then (s, false)
    else if fits (patternOf values) subject then (s, true)
    else anyFits fuel s subject rest

end

-- How a program ended. Death by a signal has no status.
structure Ending where
  status : Option Nat
  out : List Char
  err : List Char
  -- How long it took until nothing that it has started could print any more.
  nanos : Nat
  -- Signals sent to the parent, each with the time at which it was sent.
  signals : List (Nat × Nat)

def stepLimit : Nat := 100000

def parentId : Nat := 100

def start? (site : Site) (program : List Char) (args : List (List Char)) : Option Ending :=
  let s : State :=
    { site, name := program, params := [], id := parentId, parent := 1, self := parentId
      nextId := parentId + 1 }
  let ended (s : State) : Ending :=
    { status := match s.flow with
        | .killed _ => none
        | _ => some s.status
      out := collect s.out, err := collect s.err, nanos := s.finish
      signals := (s.signals.filter (·.target = parentId)).map fun sent => (sent.time, sent.signal) }
  if isShell program then some (ended (runShell stepLimit s program args))
  else (run? site [] program args).map fun e =>
    { status := some e.status, out := e.out, err := e.err, nanos := e.nanos, signals := [] }

end TestExplorer.Shell
