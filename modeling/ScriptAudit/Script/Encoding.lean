import ScriptAudit.Script.Operand
import ScriptAudit.Script.Reader
import ScriptAudit.Text.Bytes

/-! Tagged operands. The tag byte in front of an operand says how its payload is encoded;
several tags share an encoding. What a parameter makes of an integer is decided later. -/
namespace ScriptAudit

inductive Encoding where
  | int32
  | int16
  | int8
  | single
  | globalSlot
  | localSlot
  | array
  | shortString
  | longString
  | sizedString
deriving DecidableEq

namespace Encoding

def ofTag? : Int → Option Encoding
  | 0x01 => some int32
  | 0x02 => some globalSlot
  | 0x03 => some localSlot
  | 0x04 => some int8
  | 0x05 => some int16
  | 0x06 => some single
  | 0x07 => some array
  | 0x08 => some array
  | 0x09 => some shortString
  | 0x0A => some globalSlot
  | 0x0B => some localSlot
  | 0x0C => some array
  | 0x0D => some array
  | 0x0E => some sizedString
  | 0x0F => some longString
  | 0x10 => some globalSlot
  | 0x11 => some localSlot
  | 0x12 => some array
  | 0x13 => some array
  | _ => none

/-- The text of a fixed field ends before its first zero byte. -/
def fieldText (bytes : Bytes) : Text := Text.ofBytes (bytes.takeWhile (· != 0))

def payload : Encoding → Reader Operand
  | int32 => return .integer (← Reader.signed 4)
  | int16 => return .integer (← Reader.signed 2)
  | int8 => return .integer (← Reader.signed 1)
  | single => return .real (.ofSingle (← Reader.unsigned 4))
  | globalSlot => return .slot (← Reader.unsigned 2 : Nat) .globalSlot
  | localSlot => return .slot (← Reader.unsigned 2 : Nat) .localSlot
  | array => do
    let _ ← Reader.take 6
    return .array
  | shortString => return .string (fieldText (← Reader.take 8))
  | longString => return .string (fieldText (← Reader.take 16))
  | sizedString => do
    let size ← Reader.unsigned 1
    return .string (fieldText (← Reader.take size))

end Encoding

namespace Operand

/-- The operand behind a tag that has been read. -/
def payload (tag : Int) : Reader Operand :=
  match Encoding.ofTag? tag with
  | some encoding => encoding.payload
  | none => throw (.unknownTag tag)

def read : Reader Operand := do
  payload (← Reader.tag)

end Operand
end ScriptAudit
