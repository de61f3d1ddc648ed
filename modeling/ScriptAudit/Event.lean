import ScriptAudit.Command.Schema
import ScriptAudit.Resource.Basic

/-! Log records. What is logged is an event; its level, its source and its wording follow
from it. Durations are no part of an event, and their place reads `<time>`. -/
namespace ScriptAudit

inductive Level where
  | debug
  | info
  | warning
  | error
deriving DecidableEq

namespace Level

def rank : Level → Nat
  | debug => 0
  | info => 1
  | warning => 2
  | error => 3

def label : Level → String
  | debug => "DEBUG"
  | info => "INFO"
  | warning => "WARNING"
  | error => "ERROR"

end Level

inductive Event where
  | tableFailed (error : SchemaError)
  | undecodable (offset : Int) (fault : Fault)
  | disassembled (instructions failures : Nat)
  | checked
  | flagged (opcode offset : Int) (issue : Issue)
  | checkFailed (error : CheckError)
  | lineWithoutValue (line : Text)
  | enteredDirectory (path : Path)
  | loaded (path : Path)
  | notLoaded (path : Path) (failure : LoadFailure)
  | scriptChecked (path : Path) (issue : Option Issue)
  | listingWritten (path : Path)

namespace Event

def level : Event → Level
  | tableFailed _ => .error
  | undecodable _ _ => .warning
  | disassembled _ _ => .info
  | checked => .info
  | flagged _ _ _ => .debug
  | checkFailed _ => .warning
  | lineWithoutValue _ => .warning
  | enteredDirectory _ => .info
  | loaded _ => .info
  | notLoaded _ _ => .warning
  | scriptChecked _ _ => .debug
  | listingWritten _ => .info

def source : Event → String
  | tableFailed _ => "scmdisasm.commands"
  | undecodable _ _ => "scmdisasm.explorer"
  | disassembled _ _ => "scmdisasm.explorer"
  | checked => "scmdisasm.compat"
  | flagged _ _ _ => "scmdisasm.compat"
  | checkFailed _ => "scmdisasm.compat"
  | lineWithoutValue _ => "scmdisasm.loader"
  | enteredDirectory _ => "scmdisasm.loader"
  | loaded _ => "scmdisasm.loader"
  | notLoaded _ _ => "scmdisasm.loader"
  | scriptChecked _ _ => "scmdisasm.loader"
  | listingWritten _ => "scm_check"

def message : Event → Text
  | tableFailed error => "error loading commands: " ++ error.message
  | undecodable offset fault =>
    "encountered error at 0x" ++ Text.hex 0 offset ++ ": " ++ fault.message
  | disassembled instructions failures =>
    "disassembly took <time>s (" ++ toString instructions ++ " instruction(s), " ++
      toString failures ++ " undecodable offset(s))"
  | checked => "finished disassembly"
  | flagged opcode offset issue =>
    "0x" ++ Text.hex 4 opcode ++ " at 0x" ++ Text.hex 0 offset ++ " flagged as " ++ issue.label
  | checkFailed error => "script check failed: " ++ error.message
  | lineWithoutValue line => "Unable to find key and value in line '" ++ line ++ "'"
  | enteredDirectory path => "Loading files from " ++ path.text
  | loaded path => "Loaded resource " ++ path.text
  | notLoaded path failure => "Unable to load " ++ path.text ++ ": " ++ failure.message path
  | scriptChecked path issue =>
    "check_script(" ++ path.text ++ ") ==> " ++ (issue.map Issue.description).getD "None"
  | listingWritten path => "wrote listing " ++ path.text

def line (event : Event) : Text :=
  event.level.label ++ " " ++ event.source ++ ": " ++ event.message

/-- The events of a level or above, one line each. -/
def linesFrom (level : Level) (events : List Event) : List Text :=
  (events.filter fun event => level.rank ≤ event.level.rank).map line

end Event
end ScriptAudit
