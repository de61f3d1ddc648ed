import ScriptAudit.Files.Path
import ScriptAudit.Text.Utf8

/-! What can be wrong with a path. Most causes are found in the tree of files; the last two
are found in the path itself. -/
namespace ScriptAudit

inductive FileError where
  | notFound
  | isADirectory
  | notADirectory
  | fileExists
  | nameTooLong
  | tooManyMissing
  | nullCharacter
  | unencodable (error : Text.EncodingError)
deriving DecidableEq

namespace FileError

def wording : FileError → String
  | notFound => "[Errno 2] No such file or directory"
  | isADirectory => "[Errno 21] Is a directory"
  | notADirectory => "[Errno 20] Not a directory"
  | fileExists => "[Errno 17] File exists"
  | nameTooLong => "[Errno 36] File name too long"
  | tooManyMissing => "too many directories are missing"
  | nullCharacter => "embedded null byte"
  | unencodable error => error.message

/-- Whether the path cannot even be asked for. -/
def isOfPath : FileError → Bool
  | nullCharacter => true
  | unencodable _ => true
  | _ => false

def message (path : Path) (error : FileError) : Text :=
  if error.isOfPath then error.wording
  else error.wording ++ ": " ++ Text.quoted path.text

end FileError

namespace Path

/-- The most bytes of a name, and of a whole path. -/
def nameLimit : Nat := 255
def sizeLimit : Nat := 4095

/-- A name as the bytes that it is written with spell it. -/
def settleName (name : Text) : Text :=
  if name.all CodePoint.isChar then name
  else
    match name.toName with
    | .ok bytes => Text.ofName bytes
    | .error _ => name

def isTooLong (name : Text) : Bool :=
  decide (nameLimit < (name.flatMap fun point => (Text.nameUtf8? point).getD []).length)

/-- The names of a path as a tree of files has them. -/
def settle (path : Path) : Except FileError (List Text) :=
  match path.text.toName with
  | .error error => .error (.unencodable error)
  | .ok bytes =>
    if bytes.contains 0 then .error .nullCharacter
    else if sizeLimit < bytes.length then .error .nameTooLong
    else .ok (path.names.map settleName)

end Path
end ScriptAudit
