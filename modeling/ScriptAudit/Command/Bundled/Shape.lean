import ScriptAudit.Command.Basic

/-! Short words for the bundled commands: the parameters that occur, and commands that do
something or answer yes or no. -/
namespace ScriptAudit.Bundled

def int : Param := { type := .integer }
def real : Param := { type := .real }
def string : Param := { type := .string }
def pointer : Param := { type := .pointer }
def model : Param := { type := .model }
def buffer : Param := { type := .buffer }
def any : Param := { type := .any }

/-- Operands up to an end mark. -/
def more : Param := { type := .any, variadic := true }

/-- A variable of the script itself. -/
def own : Param := { type := .any, location := .localSlot }

/-- A variable that scripts share. -/
def shared : Param := { type := .any, location := .globalSlot }

def outOwn : Param := { own with output := true }
def outShared : Param := { shared with output := true }

def action (opcode : Int) (name : String) (params : List Param) : Command :=
  { opcode, name, params }

def condition (opcode : Int) (name : String) (params : List Param) : Command :=
  { opcode, name, params, returns := true }

end ScriptAudit.Bundled
