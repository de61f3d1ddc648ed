import ScriptAudit.Text.Quoted

/-! UTF-8. Surrogates have no form in it. Names of files are bytes, which need not be UTF-8;
in the text of a name each byte that is not part of a character stands as one of 128
surrogates, and these alone may be written as a name. -/
namespace ScriptAudit.Text

/-- The surrogates that stand together where a text cannot be written, and how much of the
text is in front of them. -/
structure EncodingError where
  position : Nat
  surrogates : Text
deriving DecidableEq

def EncodingError.message (error : EncodingError) : String :=
  let place :=
    match error.surrogates with
    | [point] => " '" ++ shown [point] ++ "' in position " ++ toString error.position
    | points => "s in position " ++ toString error.position ++ "-" ++
        toString (error.position + points.length - 1)
  "'utf-8' codec can't encode character" ++ place ++ ": surrogates not allowed"

def encodeBy (bytes? : CodePoint → Option (List UInt8)) (text : Text) :
    Except EncodingError (List UInt8) :=
  match text.mapM bytes? with
  | some parts => .ok parts.flatten
  | none =>
    let before := text.takeWhile fun point => (bytes? point).isSome
    .error ⟨before.length, (text.drop before.length).takeWhile fun point => !point.isChar⟩

def utf8? : CodePoint → Option (List UInt8)
  | .char c => some (String.utf8EncodeChar c)
  | .surrogate _ => none

def toUtf8 (text : Text) : Except EncodingError (List UInt8) := text.encodeBy utf8?

/-- The bytes of a text that shows the codes of its surrogates. -/
def shownUtf8 (text : Text) : List UInt8 := text.shown.toList.flatMap String.utf8EncodeChar

/-- The surrogate of a byte comes after the first 1024. -/
def byteBase : Nat := 0x400

def nameUtf8? : CodePoint → Option (List UInt8)
  | .char c => some (String.utf8EncodeChar c)
  | .surrogate place =>
    if byteBase + 0x80 ≤ place && place.val < byteBase + 0x100 then
      some [UInt8.ofNat (place - byteBase)]
    else none

def toName (text : Text) : Except EncodingError (List UInt8) := text.encodeBy nameUtf8?

/-- The number that bytes after the first one of a character go on with. -/
def continued : Nat → Nat → List UInt8 → Option (Nat × List UInt8)
  | 0, code, rest => some (code, rest)
  | _ + 1, _, [] => none
  | count + 1, code, byte :: rest =>
    if 0x80 ≤ byte && byte < 0xC0 then continued count (code * 64 + (byte.toNat - 0x80)) rest
    else none

/-- A code is written with as few bytes as it needs and is no surrogate. -/
def charFrom? (least : Nat) : Nat × List UInt8 → Option (Char × List UInt8)
  | (code, rest) =>
    if least ≤ code && (code < 0xD800 || (0xE000 ≤ code && code < 0x110000)) then
      some (Char.ofNat code, rest)
    else none

def firstChar? : List UInt8 → Option (Char × List UInt8)
  | [] => none
  | lead :: rest =>
    if lead < 0x80 then some (Char.ofNat lead.toNat, rest)
    else if lead < 0xC0 then none
    else if lead < 0xE0 then (continued 1 (lead.toNat - 0xC0) rest).bind (charFrom? 0x80)
    else if lead < 0xF0 then (continued 2 (lead.toNat - 0xE0) rest).bind (charFrom? 0x800)
    else (continued 3 (lead.toNat - 0xF0) rest).bind (charFrom? 0x10000)

/-- The characters in bytes, and the bytes between them. Each uses up a byte, so as much fuel
as there are bytes is enough. -/
def charsAndBytes : Nat → List UInt8 → List (Except UInt8 Char)
  | 0, _ => []
  | _ + 1, [] => []
  | fuel + 1, byte :: rest =>
    match firstChar? (byte :: rest) with
    | some (c, after) => .ok c :: charsAndBytes fuel after
    | none => .error byte :: charsAndBytes fuel rest

/-- Refuses bytes that are not UTF-8. -/
def ofUtf8? (bytes : List UInt8) : Option Text :=
  ((charsAndBytes bytes.length bytes).mapM Except.toOption).map ofChars

def byteSurrogate (byte : UInt8) : CodePoint :=
  .surrogate ⟨byteBase + byte.toNat, by have := byte.toNat_lt; simp only [byteBase]; omega⟩

def ofName (bytes : List UInt8) : Text :=
  (charsAndBytes bytes.length bytes).map fun
    | .ok c => .char c
    | .error byte => byteSurrogate byte

end ScriptAudit.Text
