import TestExplorer.Config
import TestExplorer.Walker

set_option autoImplicit false

namespace TestExplorer

namespace DiscoverySettings

-- The root itself may have the name of an excluded directory.
def enters (s : DiscoverySettings) (entry : WalkEntry) : Bool :=
  !(entry.fileType == some .dir && 0 < entry.depth &&
    (Text.ofBytes? entry.name).any s.excludes)

def isSource (s : DiscoverySettings) (entry : WalkEntry) : Bool :=
  entry.fileType == some .file && s.recognizes entry.path

-- The sources of a walk behind those found before. An error at the root ends it, any other is
-- noted.
def gather (s : DiscoverySettings) (root : Path) (found : List Path) :
    List (Except WalkError WalkEntry) → Except EngineError (List Path) × List Notice
  | [] => (.ok (Path.sort found), [])
  | .ok entry :: rest =>
    gather s root (if s.isSource entry then found ++ [entry.path] else found) rest
  | .error error :: rest =>
    if error.depth.getD 0 = 0 then (.error (.enumeration root error.text), [])
    else
      let (answer, notices) := gather s root found rest
      (answer, .skippedEntry error.text :: notices)

end DiscoverySettings

def listSources [Walker] (site : Site) (settings : DiscoverySettings) (root : Path) :
    Except EngineError (List Path) × List Notice :=
  if site.fs.isFile site.here root then
    (.ok (if settings.recognizes root then [root] else []), [])
  else if !site.fs.isDir site.here root then
    (.error (.enumeration root "not a directory"), [])
  else settings.gather root [] (Walker.walk site root settings.enters)

end TestExplorer
