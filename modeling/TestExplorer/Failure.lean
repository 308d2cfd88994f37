import TestExplorer.Duration
import TestExplorer.Tree.Basic

set_option autoImplicit false

namespace TestExplorer

inductive IoError where
  | notFound
  | permissionDenied
  | notDirectory
  | isDirectory
  | linkLoop
  | nameTooLong
  | badArgument
  | notUtf8
  | tooLarge (size limit : Nat)
  | other (text : String)
  deriving DecidableEq

def IoError.message : IoError → String
  | notFound => "No such file or directory (os error 2)"
  | permissionDenied => "Permission denied (os error 13)"
  | notDirectory => "Not a directory (os error 20)"
  | isDirectory => "Is a directory (os error 21)"
  | linkLoop => "Too many levels of symbolic links (os error 40)"
  | nameTooLong => "File name too long (os error 36)"
  | badArgument => "file name contained an unexpected NUL byte"
  | notUtf8 => "stream did not contain valid UTF-8"
  | tooLarge size limit => s!"file is too large ({size} bytes, max {limit} bytes)"
  | other text => text

inductive ProcessFailure where
  | spawn (program : String) (cause : IoError)
  | io (cause : IoError)
  | timedOut (limit : Duration)
  | exited (code : Int) (detail : String)
  | terminated
  | panicked (text : String)
  deriving DecidableEq

def ProcessFailure.message : ProcessFailure → String
  | spawn program cause => s!"failed to launch \x60{program}\x60: {cause.message}"
  | io cause => s!"failed to capture interpreter output: {cause.message}"
  | timedOut limit => s!"interpreter timed out after {limit.render}"
  | exited code detail => s!"interpreter exited with status {code}: {detail}"
  | terminated => "interpreter was terminated by a signal"
  | panicked text => s!"test execution panicked: {text}"

inductive EngineError where
  | read (path : Path) (cause : IoError)
  | enumeration (root : Path) (message : String)
  | process (failure : ProcessFailure)
  | tree (error : TreeError)
  | disposed
  deriving DecidableEq

def EngineError.message : EngineError → String
  | read path cause => s!"failed to read {path.display}: {cause.message}"
  | enumeration root message => s!"failed to enumerate {root.display}: {message}"
  | process failure => failure.message
  | tree error => error.message
  | disposed => "test controller has been disposed"

end TestExplorer
