import ScriptAudit.Text.CodePoint

/-! Script strings hold one character per byte. -/
namespace ScriptAudit.Text

def ofBytes (bytes : List UInt8) : Text := bytes.map fun byte => .char (Char.ofNat byte.toNat)

end ScriptAudit.Text
