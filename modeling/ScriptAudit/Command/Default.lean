import ScriptAudit.Command.Bundled.Actors
import ScriptAudit.Command.Bundled.Memory
import ScriptAudit.Command.Bundled.Platform
import ScriptAudit.Command.Bundled.Screen
import ScriptAudit.Command.Bundled.Variables
import ScriptAudit.Command.Bundled.World
import ScriptAudit.Command.Table
import ScriptAudit.Event

/-! The table that is used where none is given. A schema that cannot be loaded is logged and
leaves the table empty. -/
namespace ScriptAudit.Table

def orEmpty : Except TableError Table → Except Json.Container (Table × List Event)
  | .ok table => .ok (table, [])
  | .error (.schema error) => .ok (empty, [.tableFailed error])
  | .error (.tooDeep container) => .error container

/-- The default table from the content of its schema file, if there is one. -/
def ofDefaultFile (content : Option (List UInt8)) :
    Except Json.Container (Table × List Event) :=
  orEmpty (match content with
    | some bytes => ofBytes bytes
    | none => .error (.schema .unreadable))

def bundledCommands : List Command :=
  Bundled.variableCommands ++ Bundled.actorCommands ++ Bundled.worldCommands ++
    Bundled.screenCommands ++ Bundled.memoryCommands ++ Bundled.platformCommands

def bundled : Table := (ofCommands bundledCommands).toOption.getD empty

end ScriptAudit.Table
