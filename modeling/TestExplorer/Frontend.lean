import TestExplorer.Controller.Requests
import TestExplorer.Interpreter
import TestExplorer.Sources

set_option autoImplicit false

namespace TestExplorer

structure Frontend (σ : Type) where
  site : σ → Site
  settings : DiscoverySettings
  launcher : Launcher
  observe : RunEvent → Engine × σ → Engine × σ
  launched : Launcher.Launch → Engine × σ → Engine × σ
  note : List Notice → σ → σ

def Frontend.host {σ : Type} [Walker] [Processes] (f : Frontend σ) : Activity.Host σ
  | .enumerate root, (e, w) =>
    let (answer, notices) := listSources (f.site w) f.settings root
    (answer, (e, f.note notices w))
  | .read path, s =>
    let site := f.site s.2
    (site.fs.readSource site.here path, s)
  | .launch invocation, s =>
    let launch := f.launcher.launch (f.site s.2) invocation
    (launch.result, f.launched launch s)
  | .notify event, s => ((), f.observe event s)
  | .note notices, (e, w) => ((), (e, f.note notices w))

end TestExplorer
