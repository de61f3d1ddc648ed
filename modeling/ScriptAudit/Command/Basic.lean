import ScriptAudit.Command.Param
import ScriptAudit.Text.CodePoint

/-! Commands: the operands that follow an opcode. -/
namespace ScriptAudit

structure Command where
  opcode : Int
  name : Text
  returns : Bool := false
  params : List Param := []
deriving DecidableEq

namespace Command

/-- Opcodes have 15 bits; the top bit of an opcode word inverts the result. -/
def opcodeLimit : Int := 0x8000

/-- A condition ends in a question mark. -/
def describe (command : Command) : Text :=
  Text.hex 4 command.opcode ++ " " ++ command.name ++ "(" ++
    ", ".intercalate (command.params.map Param.describe) ++ ")" ++
    (if command.returns then "?" else "")

end Command
end ScriptAudit
