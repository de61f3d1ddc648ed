import ScriptAudit.Text.CodePoint
import ScriptAudit.Text.Printable

/-! Quoted text in messages. Single quotes enclose it, or double quotes if it holds a single
quote and no double quote. Backslash, the enclosing quote, line feed, carriage return
and tab have short escapes; surrogates and other unprintable code points show their code. -/
namespace ScriptAudit.Text

def paddedHex (width n : Nat) : List Char :=
  let digits := Nat.toDigits 16 n
  List.replicate (width - digits.length) '0' ++ digits

def escapeCode (n : Nat) : List Char :=
  if n < 0x100 then '\\' :: 'x' :: paddedHex 2 n
  else if n < 0x10000 then '\\' :: 'u' :: paddedHex 4 n
  else '\\' :: 'U' :: paddedHex 8 n

def escapeChar (quote c : Char) : List Char :=
  if c = quote || c = '\\' then ['\\', c]
  else if c = '\n' then ['\\', 'n']
  else if c = '\r' then ['\\', 'r']
  else if c = '\t' then ['\\', 't']
  else if isPrintable c then [c]
  else escapeCode c.toNat

def escape (quote : Char) : CodePoint → List Char
  | .char c => escapeChar quote c
  | .surrogate place => escapeCode (CodePoint.surrogate place).code

def quoteOf (text : Text) : Char :=
  if text.contains (.char '\'') && !text.contains (.char '"') then '"' else '\''

def quoted (text : Text) : String :=
  let quote := quoteOf text
  String.ofList (quote :: (text.flatMap (escape quote) ++ [quote]))

/-- A text as a string that shows the codes of surrogates. -/
def shown (text : Text) : String :=
  String.ofList (text.flatMap fun
    | .char c => [c]
    | .surrogate place => escapeCode (CodePoint.surrogate place).code)

end ScriptAudit.Text
