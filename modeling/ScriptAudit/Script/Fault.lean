import ScriptAudit.Text.Numeral

/-! What can be wrong with the bytes of an instruction. -/
namespace ScriptAudit

inductive Fault where
  | endOfStream (wanted : Int) (got : Nat)
  | unknownTag (tag : Int)
  | missingEnd (tag : Int)
  | unknownOpcode (opcode : Int)
deriving DecidableEq

namespace Fault

def message : Fault → String
  | endOfStream wanted got =>
    "unexpected end of stream (wanted " ++ toString wanted ++ " byte(s), got " ++
      toString got ++ ")"
  | unknownTag tag => "unknown type id '" ++ toString tag ++ "'"
  | missingEnd tag =>
    "expected end of argument list, found type id '" ++ toString tag ++ "'"
  | unknownOpcode opcode => "unknown opcode 0x" ++ Text.hex 0 opcode

end Fault

/-- A fault and the offset of the instruction in which it was met, or -1 outside of one. -/
structure DecodeError where
  fault : Fault
  offset : Int := -1
deriving DecidableEq

end ScriptAudit
