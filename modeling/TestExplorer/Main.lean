import TestExplorer.CommandLine.Commands
import TestExplorer.FileSystem.Layout

set_option autoImplicit false

namespace TestExplorer.Program

-- What stands at an entry. What cannot be looked at is left out.
partial def picture (entry : IO.FS.DirEntry) : IO (Option Inode) := do
  try
    match (← entry.path.symlinkMetadata).type with
    | .dir =>
      let inner ← entry.path.readDir
      let nodes ← inner.toList.mapM fun e => do
        return (← picture e).map fun node => (Text.toBytes e.fileName, node)
      return some (.dir (nodes.filterMap id))
    | .symlink => return some (.link (.ofString (← IO.FS.realPath entry.path).toString))
    | .file =>
      return some (.file (.bytes (← IO.FS.readBinFile entry.path).toList))
    | .other => return none
  catch _ => return none

def namesOf (path : String) : List Name :=
  ((FileSystem.start [] (.ofString path)).2).filter (!Path.isIdle ·)

def withPlace (fs : FileSystem) (path : String) : IO FileSystem := do
  let absolute := (← IO.currentDir) / path
  unless ← absolute.pathExists do return fs
  let real := (← IO.FS.realPath absolute).toString
  match ← picture { root := "/", fileName := real } with
  | none => return fs
  | some node =>
    let fs : FileSystem := ⟨fs.root.put (namesOf real) node⟩
    if real = absolute.normalize.toString then return fs
    else match fs.stat [] (.ofString absolute.toString) with
      | .ok _ => return fs
      | .error _ => return fs.write [] (.ofString absolute.toString) (.link (.ofString real))

def ignoreFilesAbove (names : List Name) : List String :=
  (List.range (names.length + 1)).flatMap fun depth =>
    let dir := (FileSystem.pathOf (names.take depth)).display
    [dir ++ "/.ignore", dir ++ "/.gitignore", dir ++ "/.git/info/exclude"]

def site (args : List String) : IO Site := do
  let here := (← IO.currentDir).toString
  let fs := FileSystem.withDirs {} FileSystem.systemDirs
  let names := namesOf here
  let fs ← (ignoreFilesAbove names).foldlM withPlace fs
  let named := (args.flatMap (·.splitOn "=")).filter (!·.startsWith "-")
  let fs ← (here :: named).foldlM withPlace fs
  return { fs, here := names }

def environment : IO Environment := do
  let interpreter ← IO.getEnv Variable.interpreter.name
  let timeoutSecs ← IO.getEnv Variable.timeoutSecs.name
  let extensions ← IO.getEnv Variable.extensions.name
  return fun
    | .interpreter => interpreter
    | .timeoutSecs => timeoutSecs
    | .extensions => extensions

end TestExplorer.Program

def main (args : List String) : IO UInt32 := do
  let done := TestExplorer.CommandLine.invoke (← TestExplorer.Program.site args)
    (← TestExplorer.Program.environment) args
  IO.print done.out
  IO.eprint done.err
  return UInt32.ofNat (done.exitCode.getD 1)
