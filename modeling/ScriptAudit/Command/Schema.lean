import ScriptAudit.Command.Basic
import ScriptAudit.Json.Basic

/-! Commands as JSON. An entry needs an opcode and a name; its parameters are a list of
entries that need a type. Type and location are written in any case. -/
namespace ScriptAudit

inductive SchemaError where
  | unreadable
  | notAList
  | invalidCommand (entry : Json)
  | incompleteCommand (entry : Json)
  | invalidOpcode (raw : Json)
  | opcodeOutOfRange (raw : Json)
  | paramsNotAList (name : Json)
  | invalidParam (entry : Json)
  | duplicateOpcode (opcode : Int)

def SchemaError.message : SchemaError → Text
  | unreadable => "unable to read command schema"
  | notAList => "command schema must contain a list of commands"
  | invalidCommand entry => "invalid command entry " ++ entry.display
  | incompleteCommand entry => "command entry requires opcode and name: " ++ entry.display
  | invalidOpcode raw => "invalid opcode " ++ raw.display
  | opcodeOutOfRange raw => "opcode " ++ raw.display ++ " outside of 0x0000-0x7FFF"
  | paramsNotAList name => "params of " ++ name.text ++ " must be a list"
  | invalidParam entry => "invalid parameter entry " ++ entry.display
  | duplicateOpcode opcode => "duplicate opcode 0x" ++ Text.hex 4 opcode

namespace Param

def type? (fields : List (Text × Json)) : Option ParamType :=
  match Json.field? "type" fields with
  | some (.string name) => name.toString?.bind fun name => ParamType.ofName? name.toLower
  | _ => none

def location? (fields : List (Text × Json)) : Option Location :=
  match Json.field? "location" fields with
  | some (.string name) => name.toString?.bind fun name => Location.ofName? name.toLower
  | some _ => none
  | none => some .immediate

/-- A field that is absent counts as false. -/
def flag (key : Text) (fields : List (Text × Json)) : Bool :=
  ((Json.field? key fields).map Json.truth).getD false

def ofJson (entry : Json) : Except SchemaError Param :=
  match entry with
  | .object fields =>
    match type? fields, location? fields with
    | some type, some location =>
      .ok ⟨type, location, flag "variadic" fields, flag "output" fields⟩
    | _, _ => .error (.invalidParam entry)
  | _ => .error (.invalidParam entry)

end Param

namespace Command

/-- Blanks around an opcode and one mark `0x` in front of the numeral are dropped. -/
def opcodeOfText? (text : Text) : Option Int := do
  match (← (Text.trim text).chars?).map Char.toLower with
  | '0' :: 'x' :: rest => Text.hexadecimal? rest
  | token => Text.hexadecimal? token

def opcodeValue? : Json → Option Int
  | .integer value => some value
  | .string text => opcodeOfText? text
  | _ => none

def opcodeOfJson (raw : Json) : Except SchemaError Int :=
  match opcodeValue? raw with
  | some opcode =>
    if 0 ≤ opcode && opcode < opcodeLimit then .ok opcode else .error (.opcodeOutOfRange raw)
  | none => .error (.invalidOpcode raw)

/-- The entries of the parameter list. Absent and false values stand for no parameters. -/
def paramEntries (name : Json) (fields : List (Text × Json)) : Except SchemaError (List Json) :=
  match Json.field? "params" fields with
  | some (.list entries) => .ok entries
  | some value => if value.truth then .error (.paramsNotAList name) else .ok []
  | none => .ok []

def ofJson (entry : Json) : Except SchemaError Command :=
  match entry with
  | .object fields =>
    match Json.field? "opcode" fields, Json.field? "name" fields with
    | some raw, some name => do
      let opcode ← opcodeOfJson raw
      let entries ← paramEntries name fields
      let params ← entries.mapM Param.ofJson
      return ⟨opcode, name.text, Param.flag "returns" fields, params⟩
    | _, _ => .error (.incompleteCommand entry)
  | _ => .error (.invalidCommand entry)

end Command
end ScriptAudit
