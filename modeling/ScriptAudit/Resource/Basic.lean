import ScriptAudit.Audit.Issue
import ScriptAudit.Files.Error

/-! What is loaded from files: scripts, some of them started only on demand, and language
files. -/
namespace ScriptAudit

structure LoadedScript where
  path : Path
  data : List UInt8
  issue : Option Issue
  invoked : Bool

namespace LoadedScript

def compatible (script : LoadedScript) : Bool := script.issue.isNone

end LoadedScript

inductive Resource where
  | script (script : LoadedScript)
  | language (path : Path) (entries : List (Text × Text))

/-- The kinds of files that can be loaded. -/
inductive ResourceKind where
  | language
  | script
  | invokedScript
deriving DecidableEq

/-- Why a file is no resource. -/
inductive LoadError where
  | extensionRequired
  | unrecognisedExtension
  | notUtf8
deriving DecidableEq

def LoadError.message : LoadError → String
  | extensionRequired => "Extension required"
  | unrecognisedExtension => "Unrecognised extension"
  | notUtf8 => "language file is not valid UTF-8"

inductive LoadFailure where
  | resource (error : LoadError)
  | file (error : FileError)
deriving DecidableEq

def LoadFailure.message (path : Path) : LoadFailure → Text
  | resource error => error.message
  | file error => error.message path

/-- The extension decides the kind, in any case of its letters. -/
def ResourceKind.ofSuffix (suffix : Text) : Except LoadError ResourceKind :=
  match suffix.toString?.map String.toLower with
  | some "" => .error .extensionRequired
  | some ".fxt" => .ok .language
  | some ".csa" => .ok .script
  | some ".csi" => .ok .invokedScript
  | _ => .error .unrecognisedExtension

end ScriptAudit
