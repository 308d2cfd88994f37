import TestExplorer.Server.Params

set_option autoImplicit false

namespace TestExplorer.Server

inductive Query where
  | resolve
  | run
  | reload
  deriving DecidableEq

inductive Event where
  | initialized
  | opened
  | changed
  | saved
  | closed
  | watched
  | cancel
  deriving DecidableEq

inductive Method where
  | setUp
  | shutdown
  | exit
  | cancelRequest
  | query (q : Query)
  | event (e : Event)
  | refused (s : Shape)
  | ignored

namespace Method

open Shape

def atPosition (more : List (String × Shape)) : Shape :=
  merged ([("textDocument", document), ("position", position)] ++ more)

def inDocument (more : List (String × Shape)) : Shape :=
  merged (("textDocument", document) :: more)

def formatting : Shape :=
  merged [("tabSize", uint32), ("insertSpaces", flag)]

def hierarchyItem : Shape :=
  record [
    ("name", text), ("kind", int32), ("tags", optional (list int32)), ("detail", optional text),
    ("uri", uri), ("range", range), ("selectionRange", range), ("data", optional any)]

def diagnostic : Shape :=
  merged [("range", range), ("severity", optional int32), ("source", optional text),
    ("message", text)]

def refusedRequests : List (String × Shape) := [
  ("textDocument/willSaveWaitUntil", record [("textDocument", document), ("reason", int32)]),
  ("textDocument/declaration", atPosition []),
  ("textDocument/definition", atPosition []),
  ("textDocument/typeDefinition", atPosition []),
  ("textDocument/implementation", atPosition []),
  ("textDocument/references", atPosition [("context", record [("includeDeclaration", flag)])]),
  ("textDocument/prepareCallHierarchy", atPosition []),
  ("callHierarchy/incomingCalls", merged [("item", hierarchyItem)]),
  ("callHierarchy/outgoingCalls", merged [("item", hierarchyItem)]),
  ("textDocument/prepareTypeHierarchy", atPosition []),
  ("typeHierarchy/supertypes", merged [("item", hierarchyItem)]),
  ("typeHierarchy/subtypes", merged [("item", hierarchyItem)]),
  ("textDocument/documentHighlight", atPosition []),
  ("textDocument/documentLink", inDocument []),
  ("documentLink/resolve",
    merged [("range", range), ("target", optional uri), ("tooltip", optional text)]),
  ("textDocument/hover", atPosition []),
  ("textDocument/codeLens", inDocument []),
  ("codeLens/resolve", merged [("range", range),
    ("command", optional (merged [("title", text), ("command", text)]))]),
  ("textDocument/foldingRange", inDocument []),
  ("textDocument/selectionRange", inDocument [("positions", list position)]),
  ("textDocument/documentSymbol", inDocument []),
  ("textDocument/semanticTokens/full", inDocument []),
  ("textDocument/semanticTokens/full/delta", inDocument [("previousResultId", text)]),
  ("textDocument/semanticTokens/range", inDocument [("range", range)]),
  ("textDocument/inlineValue", inDocument [("range", range),
    ("context", record [("frameId", int32), ("stoppedLocation", range)])]),
  ("textDocument/inlayHint", inDocument [("range", range)]),
  ("inlayHint/resolve", merged [("position", position),
    ("label", either text (list (merged [("value", text)])))]),
  ("textDocument/moniker", atPosition []),
  ("textDocument/completion", atPosition [("context",
    optional (record [("triggerKind", int32), ("triggerCharacter", optional text)]))]),
  ("completionItem/resolve", merged [("label", text)]),
  ("textDocument/diagnostic",
    inDocument [("identifier", optional text), ("previousResultId", optional text)]),
  ("workspace/diagnostic", merged [("identifier", optional text),
    ("previousResultIds", list (record [("uri", uri), ("value", text)]))]),
  ("textDocument/signatureHelp", atPosition [("context",
    optional (merged [("triggerKind", int32), ("isRetrigger", flag)]))]),
  ("textDocument/codeAction", inDocument [("range", range),
    ("context", merged [("diagnostics", list diagnostic), ("only", optional (list text))])]),
  ("codeAction/resolve", merged [("title", text)]),
  ("textDocument/documentColor", inDocument []),
  ("textDocument/colorPresentation", inDocument [("range", range), ("color",
    record [("red", number), ("green", number), ("blue", number), ("alpha", number)])]),
  ("textDocument/formatting", inDocument [("options", formatting)]),
  ("textDocument/rangeFormatting", inDocument [("range", range), ("options", formatting)]),
  ("textDocument/onTypeFormatting", atPosition [("ch", text), ("options", formatting)]),
  ("textDocument/rename", atPosition [("newName", text)]),
  ("textDocument/prepareRename", record [("textDocument", document), ("position", position)]),
  ("textDocument/linkedEditingRange", atPosition []),
  ("workspace/symbol", merged [("query", text)]),
  ("workspaceSymbol/resolve",
    merged [("name", text), ("kind", int32), ("location", either location document)]),
  ("workspace/willCreateFiles", record [("files", list (record [("uri", text)]))]),
  ("workspace/willRenameFiles",
    record [("files", list (record [("oldUri", text), ("newUri", text)]))]),
  ("workspace/willDeleteFiles", record [("files", list (record [("uri", text)]))]),
  ("workspace/executeCommand", merged [("command", text)])]

def ignoredNotifications : List String := [
  "textDocument/willSave", "workspace/didChangeConfiguration",
  "workspace/didChangeWorkspaceFolders", "workspace/didCreateFiles", "workspace/didRenameFiles",
  "workspace/didDeleteFiles"]

def actedOn : List (String × Method) := [
  ("initialize", setUp),
  ("shutdown", shutdown),
  ("exit", exit),
  ("$/cancelRequest", cancelRequest),
  ("prologtest/resolve", query .resolve),
  ("prologtest/run", query .run),
  ("prologtest/reload", query .reload),
  ("prologtest/cancel", event .cancel),
  ("initialized", event .initialized),
  ("textDocument/didOpen", event .opened),
  ("textDocument/didChange", event .changed),
  ("textDocument/didSave", event .saved),
  ("textDocument/didClose", event .closed),
  ("workspace/didChangeWatchedFiles", event .watched)]

def ofName? (name : String) : Option Method :=
  match actedOn.find? (·.1 = name) with
  | some (_, method) => some method
  | none =>
    match refusedRequests.find? (·.1 = name) with
    | some (_, shape) => some (refused shape)
    | none => if ignoredNotifications.contains name then some ignored else none

end Method

end TestExplorer.Server
