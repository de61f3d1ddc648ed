import ScriptAudit.Script.Instruction

/-! A position in a script that reads move on. The position may lie past the end, where
there is nothing to read. Positions and sizes that are asked for fit in a signed word of
64 bits. -/
namespace ScriptAudit

/-- Why a cursor does not do what it is asked for. -/
inductive CursorError where
  | negative (position : Int)
  | outOfRange
deriving DecidableEq

structure Cursor where
  data : Bytes
  position : Nat := 0

namespace Cursor

def rest (cursor : Cursor) : Bytes := cursor.data.drop cursor.position

def atEnd (cursor : Cursor) : Bool := decide (cursor.data.length ≤ cursor.position)

def isWord (n : Int) : Bool := -0x8000000000000000 ≤ n && n < 0x8000000000000000

def seek (cursor : Cursor) (position : Int) : Except CursorError Cursor :=
  if !isWord position then .error .outOfRange
  else if position < 0 then .error (.negative position)
  else .ok { cursor with position := position.toNat }

def leaving (cursor : Cursor) (rest : Bytes) : Cursor :=
  { cursor with position := cursor.position + (cursor.rest.length - rest.length) }

def run {ε α : Type} (cursor : Cursor) (reader : EStateM ε Bytes α) : Except ε α × Cursor :=
  match reader cursor.rest with
  | .ok value rest => (.ok value, cursor.leaving rest)
  | .error error rest => (.error error, cursor.leaving rest)

/-- A read outside of an instruction. -/
def read {α : Type} (cursor : Cursor) (reader : Reader α) : Except DecodeError α × Cursor :=
  cursor.run (reader.adaptExcept fun fault => ⟨fault, -1⟩)

def exactly (cursor : Cursor) (size : Int) :
    Except CursorError (Except DecodeError Bytes × Cursor) :=
  if isWord size then .ok (cursor.read (Reader.exactly size)) else .error .outOfRange

def instruction (cursor : Cursor) (table : Table) : Except DecodeError Instruction × Cursor :=
  cursor.run (Instruction.read table cursor.position)

/-- Operands one after the other, until the data is used up or one cannot be read. Each
takes at least its tag, so as much fuel as there are bytes is enough. -/
def operandsWithin : Nat → Cursor → List (Except DecodeError Operand)
  | 0, _ => []
  | fuel + 1, cursor =>
    if cursor.atEnd then []
    else
      match cursor.read Operand.read with
      | (.ok operand, after) => .ok operand :: operandsWithin fuel after
      | (.error error, _) => [.error error]

def operands (data : Bytes) : List (Except DecodeError Operand) :=
  operandsWithin data.length ⟨data, 0⟩

end Cursor
end ScriptAudit
