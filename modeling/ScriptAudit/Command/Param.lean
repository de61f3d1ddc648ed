import ScriptAudit.Script.Encoding

/-! Parameters of commands, and how the operand of a parameter is read. A buffer is read
first of all, also where the parameter is variadic; then a variadic list, which a zero
byte ends; then a bare end mark, which has no value; else one tagged operand. -/
namespace ScriptAudit

inductive ParamType where
  | integer
  | string
  | real
  | model
  | pointer
  | endMark
  | buffer
  | any
deriving DecidableEq

namespace ParamType

def name : ParamType → String
  | integer => "integer"
  | string => "string"
  | real => "real"
  | model => "model"
  | pointer => "pointer"
  | endMark => "end"
  | buffer => "buffer"
  | any => "any"

def ofName? : String → Option ParamType
  | "integer" => some integer
  | "string" => some string
  | "real" => some real
  | "model" => some model
  | "pointer" => some pointer
  | "end" => some endMark
  | "buffer" => some buffer
  | "any" => some any
  | _ => none

end ParamType

structure Param where
  type : ParamType
  location : Location := .immediate
  variadic : Bool := false
  output : Bool := false
deriving DecidableEq

namespace Param

def bufferSize : Nat := 128

/-- An integer that stands for a pointer or a model becomes one. -/
def reinterpret (param : Param) : Operand → Operand
  | .integer value =>
    match param.type with
    | .pointer => .pointer value
    | .model => .model value
    | _ => .integer value
  | operand => operand

/-- Operands up to the end mark. Each takes at least its tag, so as much fuel as there are
bytes runs out only when the bytes do. -/
def readItems (param : Param) : Nat → Reader (List Operand)
  | 0 => throw (.endOfStream 1 0)
  | fuel + 1 => do
    let tag ← Reader.tag
    if tag = 0 then return []
    else
      let item ← Operand.payload tag
      return param.reinterpret item :: (← readItems param fuel)

def readVarargs (param : Param) : Reader Operand := do
  return .varargs (← readItems param (← get).length)

def readEnd : Reader Unit := do
  let tag ← Reader.tag
  if tag = 0 then return () else throw (.missingEnd tag)

def read (param : Param) : Reader (Option Operand) := do
  if param.type = .buffer then
    return some (.buffer (Encoding.fieldText (← Reader.take bufferSize)))
  else if param.variadic then
    return some (← readVarargs param)
  else if param.type = .endMark then
    readEnd
    return none
  else return some (param.reinterpret (← Operand.read))

def describe (param : Param) : String :=
  (if param.output then "out " else "") ++ param.type.name ++
    (if param.variadic then "..." else "")

end Param
end ScriptAudit
