import TestExplorer.Ignore.Listing
import TestExplorer.Server.Session
import TestExplorer.Server.Uri
import TestExplorer.Shell.Start
import TestExplorer.Toml.Parser

set_option autoImplicit false

namespace TestExplorer.Server

def Service.direct (s : Service) (name : String) (params : Json) : Response × Service :=
  let s := s.listens
  match name with
  | "resolve" => s.resolve ((resolveId? params).getD none)
  | "run" => s.run ((include? params).getD none)
  | "reload" => s.reload
  | _ => (.ok .null, s.cancel)

end TestExplorer.Server
