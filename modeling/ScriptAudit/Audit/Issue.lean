import ScriptAudit.Json.Basic

/-! Reasons for which a script may not run. Commands that the runtime lacks are tested
first, so two of the codes that rely on the platform count as missing. -/
namespace ScriptAudit

inductive Issue where
  | androidSpecific
  | notImplemented
  | checkFailed
deriving DecidableEq

namespace Issue

def label : Issue → String
  | androidSpecific => "ANDROID_SPECIFIC"
  | notImplemented => "NOT_IMPL"
  | checkFailed => "CHECK_FAILED"

def description : Issue → String
  | androidSpecific => "Script uses Android-specific code."
  | notImplemented => "Script uses features not yet present on iOS."
  | checkFailed => "Unable to complete script check on this script."

def isNotImplemented (opcode : Int) : Bool :=
  opcode = 0x0DD5 || opcode = 0x0DD6 || (0x0DE1 ≤ opcode && opcode ≤ 0x0DF6)

def isAndroidSpecific (opcode : Int) : Bool :=
  (0x0DD0 ≤ opcode && opcode ≤ 0x0DDB) || opcode = 0x0DDE

def ofOpcode? (opcode : Int) : Option Issue :=
  if isNotImplemented opcode then some notImplemented
  else if isAndroidSpecific opcode then some androidSpecific
  else none

end Issue

/-- Why a check cannot run at all. -/
inductive CheckError where
  | notBytes (body : Json)

def CheckError.message : CheckError → String
  | notBytes body => "script body must be bytes, not " ++ body.kind

end ScriptAudit
