import ScriptAudit.Association
import ScriptAudit.Decimal.Layout
import ScriptAudit.Text.Quoted

/-! JSON values. Integers and reals are apart, fields keep their order. `display` writes a value
as messages quote it, `text` the same with a string left unquoted. -/
namespace ScriptAudit

inductive Json where
  | null
  | bool (value : Bool)
  | integer (value : Int)
  | real (value : Binary64)
  | string (value : Text)
  | list (items : List Json)
  | object (fields : List (Text × Json))

namespace Json

def field? (key : Text) (fields : List (Text × Json)) : Option Json :=
  Association.get? key fields

/-- Null, zero and everything empty are false. -/
def truth : Json → Bool
  | null => false
  | bool value => value
  | integer value => value != 0
  | real value => !value.isZero
  | string value => !value.isEmpty
  | list items => !items.isEmpty
  | object fields => !fields.isEmpty

mutual

def display : Json → String
  | null => "None"
  | bool true => "True"
  | bool false => "False"
  | integer value => toString value
  | real value => value.text
  | string value => Text.quoted value
  | list items => "[" ++ ", ".intercalate (displayItems items) ++ "]"
  | object fields => "\x7b" ++ ", ".intercalate (displayFields fields) ++ "\x7d"

def displayItems : List Json → List String
  | [] => []
  | item :: rest => item.display :: displayItems rest

def displayFields : List (Text × Json) → List String
  | [] => []
  | (key, value) :: rest => (Text.quoted key ++ ": " ++ value.display) :: displayFields rest

end

def text : Json → Text
  | string value => value
  | value => value.display

/-- The word for the kind of a value in messages. -/
def kind : Json → String
  | null => "NoneType"
  | bool _ => "bool"
  | integer _ => "int"
  | real _ => "float"
  | string _ => "str"
  | list _ => "list"
  | object _ => "dict"

end Json
end ScriptAudit
