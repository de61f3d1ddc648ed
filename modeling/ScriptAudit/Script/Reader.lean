import ScriptAudit.Script.Fault

/-! Reading bytes. A reader takes bytes off the front of what is left of a script and keeps
the rest also when it fails, so the bytes it has looked at are always known. A read past
the end uses up all that is left. -/
namespace ScriptAudit

abbrev Bytes := List UInt8

abbrev Reader := EStateM Fault Bytes

namespace Reader

def take (size : Nat) : Reader Bytes := fun bytes =>
  if size ≤ bytes.length then .ok (bytes.take size) (bytes.drop size)
  else .error (.endOfStream size bytes.length) []

/-- A negative size asks for everything, which never is the size asked for. -/
def exactly : Int → Reader Bytes
  | .ofNat size => take size
  | .negSucc size => fun bytes => .error (.endOfStream (.negSucc size) bytes.length) []

/-- The number with these bytes, the least significant first. -/
def littleEndian : Bytes → Nat
  | [] => 0
  | byte :: rest => byte.toNat + 256 * littleEndian rest

def unsigned (size : Nat) : Reader Nat := do
  return littleEndian (← take size)

/-- Two's complement. -/
def signed (size : Nat) : Reader Int := do
  return Int.bmod (← unsigned size) (Nat.pow 256 size)

def tag : Reader Int := do
  return (← unsigned 1 : Nat)

end Reader
end ScriptAudit
