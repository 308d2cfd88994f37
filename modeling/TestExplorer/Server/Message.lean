import TestExplorer.Failure
import TestExplorer.Json

set_option autoImplicit false

namespace TestExplorer.Server

structure Message where
  method : String
  params : Option Json := none
  isRequest : Bool := false

structure Notification where
  method : String
  params : Json

inductive ResponseError where
  -- Before the first initialization, whatever is asked for.
  | notInitialized
  | invalidRequest
  | methodNotFound
  | invalidParams
  -- There is no workspace to ask.
  | noWorkspace
  | engine (cause : EngineError)
  | notWritable (cause : String)
  deriving DecidableEq

namespace ResponseError

def code : ResponseError → Int
  | notInitialized => -32002
  | invalidRequest => -32600
  | methodNotFound => -32601
  | invalidParams => -32602
  | noWorkspace => -32002
  | engine _ => -32603
  | notWritable _ => -32603

def message : ResponseError → String
  | notInitialized => "Server not initialized"
  | invalidRequest => "Invalid request"
  | methodNotFound => "Method not found"
  | invalidParams => "Invalid params"
  | noWorkspace => "server not initialized"
  | engine cause => cause.message
  | notWritable cause => cause

end ResponseError

abbrev Response := Except ResponseError Json

inductive Answer where
  -- The server has exited and takes no messages.
  | closed
  | silent
  | response (r : Response)

end TestExplorer.Server
