import TestExplorer.FileSystem.Basic

set_option autoImplicit false

namespace TestExplorer.FileSystem

def systemDirs : List String :=
  ["/bin", "/usr/bin", "/tmp", "/dev", "/etc"]

def withDirs (fs : FileSystem) (paths : List String) : FileSystem :=
  paths.foldl (fun fs path => fs.write [] (.ofString path) (.dir [])) fs

def layout (workspace : Path) (entries : List (Path × Inode)) : Site :=
  let fs := withDirs {} systemDirs
  let fs := fs.write [] workspace (.dir [])
  match fs.resolve [] workspace with
  | .ok here => { fs := entries.foldl (fun fs (p, node) => fs.write here p node) fs, here }
  | .error _ => { fs, here := [] }

end TestExplorer.FileSystem
