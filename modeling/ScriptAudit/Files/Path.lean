import ScriptAudit.Text.CodePoint

/-! Paths as lists of names. Empty names and single dots vanish, two dots stay; the empty
path is the current directory. An absolute path begins with the name `/`, or `//` if just
two slashes are in front of it. -/
namespace ScriptAudit

structure Path where
  names : List Text
deriving DecidableEq

namespace Path

def slash : CodePoint := .char '/'

def dot : CodePoint := .char '.'

def current : Path := ⟨[]⟩

def splitNames : Text → List Text
  | [] => [[]]
  | point :: rest =>
    if point = slash then [] :: splitNames rest
    else
      match splitNames rest with
      | [] => [[point]]
      | name :: more => (point :: name) :: more

/-- The name that slashes in front of a path stand for. -/
def rootOf (text : Text) : List Text :=
  match (text.takeWhile (· = slash)).length with
  | 0 => []
  | 2 => [[slash, slash]]
  | _ => [[slash]]

def isRoot (name : Text) : Bool := name = [slash] || name = [slash, slash]

def ofText (text : Text) : Path :=
  ⟨rootOf text ++ (splitNames text).filter fun name => !name.isEmpty && name != [dot]⟩

def text (path : Path) : Text :=
  match path.names with
  | [] => [dot]
  | name :: names =>
    if isRoot name then name ++ Text.join [slash] names else Text.join [slash] (name :: names)

def child (path : Path) (name : Text) : Path := ⟨path.names ++ [name]⟩

def isAbsolute (path : Path) : Bool := path.names.head?.any isRoot

/-- A path seen from a directory. -/
def under (base path : Path) : Path :=
  if path.isAbsolute then path else ⟨base.names ++ path.names⟩

/-- The last name, which the empty path does not have. -/
def name (path : Path) : Text := path.names.getLast?.getD []

/-- The part of a name from its last dot on. A dot that begins or ends the name begins no
suffix. -/
def suffixOf (name : Text) : Text :=
  let tail := (name.reverse.takeWhile (· != dot)).reverse
  if tail.isEmpty || name.length ≤ tail.length + 1 then [] else dot :: tail

def suffix (path : Path) : Text := suffixOf path.name

/-- The name that leads back. -/
def above : Text := [dot, dot]

def collapseStep (names : List Text) (name : Text) : List Text :=
  if name = above then
    match names.getLast? with
    | none => names ++ [name]
    | some last =>
      if isRoot last then names else if last = above then names ++ [name] else names.dropLast
  else names ++ [name]

/-- Leaves out each name that two dots take back, without looking at any directory. -/
def collapse (path : Path) : Path := ⟨path.names.foldl collapseStep []⟩

end Path
end ScriptAudit
