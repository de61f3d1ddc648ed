import ScriptAudit.Association
import ScriptAudit.Files.Error

/-! Trees of files. A path is followed name by name from the root. Two dots lead back to the
directory above; above the root they are a name like any other. Every name on the way but
the last has to be a directory. -/
namespace ScriptAudit

inductive Node where
  | file (bytes : List UInt8)
  | directory (entries : List (Text × Node))

namespace Node

def isDirectory : Node → Bool
  | file _ => false
  | directory _ => true

def child? (name : Text) : Node → Option Node
  | file _ => none
  | directory entries => Association.get? name entries

/-- The node at a place that is given without dots. -/
def at? (node : Node) : List Text → Option Node
  | [] => some node
  | name :: rest =>
    match node.child? name with
    | some next => next.at? rest
    | none => none

/-- Whether a name leads back from a place below the root. -/
def leadsBack (place : List Text) (name : Text) : Bool :=
  name = Path.above && place.getLast?.any (· != Path.above)

/-- Why a directory does not have a name. -/
def absence (name : Text) : FileError :=
  if Path.isTooLong name then .nameTooLong else .notFound

/-- The place of a name that is new in a directory. -/
def newPlace (parent : List Text) (name : Text) : Except FileError (List Text) :=
  if Path.isTooLong name then .error .nameTooLong else .ok (parent ++ [name])

def step (root : Node) (place : List Text) (name : Text) : Except FileError (List Text) :=
  match root.at? place with
  | none => .error .notFound
  | some (file _) => .error .notADirectory
  | some node =>
    if leadsBack place name then .ok place.dropLast
    else if (node.child? name).isSome then .ok (place ++ [name])
    else .error (absence name)

/-- The place of an existing node. -/
def locate (root : Node) (names : List Text) : Except FileError (List Text) :=
  names.foldlM root.step []

def resolve (root : Node) (path : Path) : Except FileError Node := do
  match root.at? (← root.locate (← path.settle)) with
  | some node => .ok node
  | none => .error .notFound

/-- Whether something is at a path. A name that is too long is an error; every other path
that leads nowhere has nothing there. -/
def holds (root : Node) (path : Path) : Except FileError Bool :=
  match root.resolve path with
  | .ok _ => .ok true
  | .error .nameTooLong => .error .nameTooLong
  | .error _ => .ok false

def hasDirectory (root : Node) (path : Path) : Bool :=
  match root.resolve path with
  | .ok node => node.isDirectory
  | .error _ => false

def readFile (root : Node) (path : Path) : Except FileError (List UInt8) := do
  match ← root.resolve path with
  | file bytes => .ok bytes
  | directory _ => .error .isADirectory

def readDirectory (root : Node) (path : Path) : Except FileError (List (Text × Node)) := do
  match ← root.resolve path with
  | file _ => .error .notADirectory
  | directory entries => .ok entries

/-- Puts a node at a place, whose directories are made where there are none. -/
def insert (new : Node) : List Text → Node → Node
  | [], _ => new
  | name :: rest, node =>
    match node with
    | file bytes => file bytes
    | directory entries =>
      let below := (Association.get? name entries).getD (directory [])
      directory (Association.put name (insert new rest below) entries)

/-- The place of a file that may be made, in a directory that has to exist. -/
def placeForFile (root : Node) (path : Path) : Except FileError (List Text) := do
  let names ← path.settle
  match names.getLast? with
  | none => .error .isADirectory
  | some name =>
    let parent ← root.locate names.dropLast
    match root.at? parent with
    | none => .error .notFound
    | some (file _) => .error .notADirectory
    | some node =>
      if leadsBack parent name then .error .isADirectory
      else
        match node.child? name with
        | some (directory _) => .error .isADirectory
        | some (file _) => .ok (parent ++ [name])
        | none => newPlace parent name

def bytesAt (root : Node) (place : List Text) : List UInt8 :=
  match root.at? place with
  | some (file bytes) => bytes
  | _ => []

def writeAt (root : Node) (place : List Text) (bytes : List UInt8) : Node :=
  insert (file bytes) place root

def appendAt (root : Node) (place : List Text) (bytes : List UInt8) : Node :=
  root.writeAt place (root.bytesAt place ++ bytes)

/-- Makes one directory; one that exists is left as it is. -/
def makeDirectory (root : Node) (path : Path) : Except FileError Node := do
  let names ← path.settle
  match names.getLast? with
  | none => .ok root
  | some name =>
    let parent ← root.locate names.dropLast
    match root.at? parent with
    | none => .error .notFound
    | some (file _) => .error .notADirectory
    | some node =>
      if leadsBack parent name then .ok root
      else
        match node.child? name with
        | some (directory _) => .ok root
        | some (file _) => .error .fileExists
        | none => return insert (directory []) (← newPlace parent name) root

/-- Makes a directory, given by its names from the last one on, and so many directories
above it at most. -/
def makeAlong (root : Node) : Nat → List Text → Except FileError Node
  | _, [] => .ok root
  | room, name :: above =>
    match root.makeDirectory ⟨(name :: above).reverse⟩, room with
    | .error .notFound, 0 => .error .tooManyMissing
    | .error .notFound, room + 1 => do
      let root ← makeAlong root room above
      root.makeDirectory ⟨(name :: above).reverse⟩
    | result, _ => result

/-- As many directories above a new one may be missing. -/
def missingLimit : Nat := 988

/-- Makes a directory and the directories above it that are missing. -/
def makeDirectories (root : Node) (path : Path) : Except FileError Node :=
  root.makeAlong missingLimit path.names.reverse

mutual

/-- All files below a path. -/
def files (path : Path) : Node → List (Path × List UInt8)
  | file bytes => [(path, bytes)]
  | directory entries => filesOf path entries

def filesOf (path : Path) : List (Text × Node) → List (Path × List UInt8)
  | [] => []
  | (name, node) :: rest => node.files (path.child name) ++ filesOf path rest

end

end Node

/-- What a walk through a directory meets. A path may become too long on the way. -/
inductive Visit where
  | enter (path : Path)
  | file (path : Path) (bytes : List UInt8)
  | leave (path : Path)
  | refused (path : Path) (error : FileError)

namespace Visit

/-- Names in the order of their code points. -/
def byName {α : Type} (entries : List (Text × α)) : List (Text × α) :=
  entries.mergeSort fun a b => a.1.le b.1

mutual

/-- The visits that a node makes in the walk through the directory that holds it. -/
def ofNode (path : Path) (node : Node) : List Visit :=
  match path.settle, node with
  | .error error, _ => [.refused path error]
  | .ok _, .file bytes => [.file path bytes]
  | .ok _, .directory entries =>
    .enter path :: ((byName (blocks path entries)).flatMap (·.2) ++ [.leave path])

def blocks (path : Path) : List (Text × Node) → List (Text × List Visit)
  | [] => []
  | (name, node) :: rest => (name, ofNode (path.child name) node) :: blocks path rest

end

/-- Depth first, the entries of each directory by name. -/
def walk (path : Path) (entries : List (Text × Node)) : List Visit :=
  .enter path :: (byName (blocks path entries)).flatMap (·.2)

end Visit
end ScriptAudit
