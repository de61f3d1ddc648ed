import ScriptAudit.CommandLine.Session

/-! The command line itself. The files that it names are read into a tree, the run is a
function of that tree, and the files that it changed are written back. Only files can be
named: the entries of a directory are not read here. -/
namespace ScriptAudit.Main

def usage : String :=
  "usage: [--commands FILE] [--listing] [--listing-out DIR] [--max-instructions N] " ++
    "[--describe COMMAND] [--cheat CODE] [--summary] [-v] [--log-file FILE] [FILE ...]"

def toBytes (content : ByteArray) : Bytes := content.data.toList

def nameOf (path : Path) : String := path.text.shown

def read? (path : Path) : IO (Option Bytes) := do
  try return some (toBytes (← IO.FS.readBinFile (nameOf path)))
  catch _ => return none

def isDirectory (path : Path) : IO Bool := do
  try
    let _ ← IO.FS.Handle.mk (nameOf path ++ "/.") .read
    return true
  catch _ => return false

/-- Adds what is found at a path. -/
def grow (tree : Node) (path : Path) : IO Node := do
  let place := path.collapse
  match ← read? path with
  | some bytes => return tree.writeAt place.names bytes
  | none =>
    if (← isDirectory path) && (tree.at? place.names).isNone then
      return Node.insert (.directory []) place.names tree
    else return tree

/-- Adds a path and the directories that lead to it. -/
def growAll (tree : Node) (path : Path) : IO Node :=
  ((List.range (path.names.length + 1)).map fun count => Path.mk (path.names.take count)).foldlM
    grow tree

def namedPaths (options : Options) : List Path :=
  options.inputs ++ Given.leading options.commands.toList ++ options.listingOut.toList ++
    options.logFile.toList

def writeBack (before after : Node) : IO Unit := do
  for (path, bytes) in after.files Path.current do
    if before.bytesAt path.names != bytes || (before.at? path.names).isNone then
      IO.FS.createDirAll (nameOf ⟨path.names.dropLast⟩)
      IO.FS.writeBinFile (nameOf path) ⟨bytes.toArray⟩

def haltMessage : Halt → String
  | .refused text => text.shown
  | .file error => error.wording
  | .render error => error.message
  | .encoding error => error.message
  | .tooDeep _ => "the command schema is nested too deep"
  | .noValue switch => "no value for --" ++ switch.longName.shown

def finish (result : Except Halt Bool) : IO UInt32 := do
  match result with
  | .ok found => return if found then 1 else 0
  | .error halt =>
    IO.eprintln (haltMessage halt)
    return 1

def run (args : List Text) : IO UInt32 := do
  match Options.parse args with
  | .error .help =>
    IO.println usage
    return 0
  | .error .usage =>
    IO.eprintln usage
    return 2
  | .ok options =>
    let before ← (namedPaths options).foldlM growAll (.directory [])
    match options.inputs.find? before.hasDirectory with
    | some path =>
      IO.eprintln (nameOf path ++ ": is a directory")
      return 2
    | none =>
      match runCommandLine .current args before with
      | .stopped _ => return 2
      | .ran result session =>
        IO.print session.out.shown
        IO.eprint session.err.shown
        writeBack before session.tree
        finish result

end ScriptAudit.Main

def main (args : List String) : IO UInt32 :=
  ScriptAudit.Main.run (args.map ScriptAudit.Text.ofString)
