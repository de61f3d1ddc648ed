import ScriptAudit.Decimal.Layout
import ScriptAudit.Text.CodePoint
import ScriptAudit.Text.Numeral

/-! Operands of instructions and their text in listings. -/
namespace ScriptAudit

/-- Where a variable lives. An immediate value stands in the script itself and is no
variable. -/
inductive Location where
  | immediate
  | localSlot
  | globalSlot
deriving DecidableEq

/-- A negative pointer addresses the script it stands in, by its magnitude; any other one
the global space. -/
inductive Operand where
  | integer (value : Int)
  | real (value : Binary64)
  | string (text : Text)
  | model (id : Int)
  | pointer (offset : Int)
  | slot (index : Int) (location : Location)
  | array
  | buffer (text : Text)
  | varargs (items : List Operand)

/-- Why an operand has no text. -/
inductive RenderError where
  | immediateSlot
deriving DecidableEq

def RenderError.message : RenderError → String
  | immediateSlot => "immediate values are not variables"

namespace Location

def name : Location → String
  | immediate => "immediate"
  | localSlot => "local"
  | globalSlot => "global"

def ofName? : String → Option Location
  | "immediate" => some immediate
  | "local" => some localSlot
  | "global" => some globalSlot
  | _ => none

end Location

namespace Operand

def isLocal (offset : Int) : Bool := offset < 0

/-- The script offset that an operand points to. -/
def target? : Operand → Option Int
  | pointer offset => if isLocal offset then some offset.natAbs else none
  | _ => none

def renderPointer (offset : Int) : Text :=
  let address := "0x" ++ Text.hex 0 offset.natAbs
  if isLocal offset then address else "Global(" ++ address ++ ")"

mutual

def render : Operand → Except RenderError Text
  | integer value => .ok (toString value)
  | real value => .ok (value.text ++ "f")
  | string text => .ok ("\"" ++ text ++ "\"")
  | model id => .ok ("#" ++ toString id)
  | pointer offset => .ok (renderPointer offset)
  | slot _ .immediate => .error .immediateSlot
  | slot index location => .ok (location.name ++ "_0x" ++ Text.hex 0 index)
  | array => .ok "arr"
  | buffer text => .ok ("\"" ++ text ++ "\"")
  | varargs items => do return Text.join ", " (← renderAll items)

def renderAll : List Operand → Except RenderError (List Text)
  | [] => .ok []
  | item :: rest => do
    let text ← item.render
    return text :: (← renderAll rest)

end

end Operand
end ScriptAudit
