import TestExplorer.Shell.Expansion

set_option autoImplicit false

namespace TestExplorer.Shell

def openFailure (cause : IoError) (missing : String) : List Char :=
  match cause with
  | .isDirectory => "Is a directory".toList
  | .notDirectory => "Not a directory".toList
  | .permissionDenied => "Permission denied".toList
  | _ => missing.toList

namespace State

def pathOf (s : State) (file : List Char) : Path :=
  (FileSystem.pathOf s.site.here).join ⟨toBytes file⟩

-- The sink that a file is; the name of a device is no file.
def openSink (s : State) (append : Bool) (file : List Char) : Except (List Char) (Sink × State) :=
  match String.ofList file with
  | "/dev/null" => .ok (.nowhere, s)
  | "/dev/stdout" => .ok ((s.sinkOf? 1).getD .nowhere, s)
  | "/dev/stderr" => .ok ((s.sinkOf? 2).getD .nowhere, s)
  | _ =>
    let path := s.pathOf file
    let made : Except (List Char) (Sink × State) :=
      .ok (.file path,
        { s with site := { s.site with fs := s.site.fs.write [] path (.file (.bytes [])) } })
    match s.site.fs.stat [] path with
    | .ok node =>
      if node.isDir then .error "Is a directory".toList
      else if append then .ok (.file path, s)
      else made
    | .error .notFound =>
      if path.parent?.any (s.site.fs.isDir []) then made
      else .error "Directory nonexistent".toList
    | .error cause => .error (openFailure cause "Directory nonexistent")

def redirectStream (s : State) (descriptor : Option Nat) (kind : Redirect) (target : List Char) :
    State × Bool :=
  let output (append : Bool) : State × Bool :=
    match s.openSink append target with
    | .ok (sink, s) => (s.withSink (descriptor.getD 1) sink, true)
    | .error reason => (s.fail ("cannot create ".toList ++ target ++ ": ".toList ++ reason), false)
  match kind with
  | .input =>
    if target = "/dev/null".toList then ({ s with input := [] }, true)
    else match s.site.fs.read [] (s.pathOf target) with
      | .ok bytes => ({ s with input := ofBytes bytes }, true)
      | .error .isDirectory => ({ s with input := [] }, true)
      | .error cause =>
        (s.fail ("cannot open ".toList ++ target ++ ": ".toList ++
          openFailure cause "No such file"), false)
  | .output => output false
  | .append => output true
  | .duplicate =>
    let descriptor := descriptor.getD 1
    if target = ['-'] then (s.withoutSink descriptor, true)
    else if descriptor = 0 ∨ target = ['0'] then (s, true)
    else if target.isEmpty || !target.all isDigit then (s.abort "Syntax error: Bad fd number".toList, false)
    else match s.sinkOf? (natOf target) with
      | some sink => (s.withSink descriptor sink, true)
      | none => (s.fail (target ++ ": Bad file descriptor".toList), false)

end State

def Redirection.isInput : Redirection → Bool
  | .stream descriptor .input _ => descriptor.getD 0 == 0
  | .stream _ _ _ => false
  | .document descriptor _ => descriptor.getD 0 == 0

def Redirection.isOutput (stream : Nat) : Redirection → Bool
  | .stream _ .input _ => false
  | .stream descriptor _ _ => descriptor.getD 1 == stream
  | .document _ _ => false

def State.restoreStreams (s before : State) (redirections : List Redirection) : State :=
  { s with
    sinks := before.sinks
    input := if redirections.any (·.isInput) then before.input else s.input }

end TestExplorer.Shell
