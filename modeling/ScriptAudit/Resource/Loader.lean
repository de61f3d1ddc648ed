import ScriptAudit.Audit.Check
import ScriptAudit.Files.Tree
import ScriptAudit.Language
import ScriptAudit.Resource.Basic
import ScriptAudit.Text.Utf8

/-! Loading resources. A single file is loaded by its extension, which is looked at before
the file is. A directory is walked and each of its files loaded; a file that cannot be
loaded is logged and skipped. The entries of language files go into one store. -/
namespace ScriptAudit

def Resource.entries : Resource → Language.Entries
  | script _ => []
  | language _ entries => entries

def ResourceKind.load (table : Table) (path : Path) (bytes : Bytes) :
    ResourceKind → Except LoadError (Resource × List Event)
  | .language =>
    match Text.ofUtf8? bytes with
    | none => .error .notUtf8
    | some text =>
      let (entries, warnings) := Language.parse (Text.foldReturns text)
      .ok (.language path entries, warnings)
  | kind =>
    let (issue, events) := check table (.bytes bytes)
    .ok (.script ⟨path, bytes, issue, kind = .invokedScript⟩,
      events ++ [.scriptChecked path issue])

/-- What a file with these bytes holds. -/
def Resource.ofFile (table : Table) (path : Path) (bytes : Bytes) :
    Except LoadError (Resource × List Event) := do
  (← ResourceKind.ofSuffix path.suffix).load table path bytes

structure Loader where
  table : Table
  store : Language.Entries := []

namespace Loader

def keep (loader : Loader) (resource : Resource) : Loader :=
  { loader with store := Association.update loader.store resource.entries }

/-- One step of a walk: the resource it yields, if any, and what is logged. -/
def visit (loader : Loader) : Visit → Loader × List Resource × List Event
  | .enter path => (loader, [], [.enteredDirectory path])
  | .leave path => (loader, [], [.loaded path])
  | .file path bytes =>
    match Resource.ofFile loader.table path bytes with
    | .ok (resource, events) => (loader.keep resource, [resource], events ++ [.loaded path])
    | .error error => (loader, [], [.notLoaded path (.resource error)])
  | .refused path error => (loader, [], [.notLoaded path (.file error)])

def visitAll (loader : Loader) : List Visit → Loader × List Resource × List Event
  | [] => (loader, [], [])
  | visit :: rest =>
    let (loader, first, logged) := loader.visit visit
    let (loader, more, later) := loader.visitAll rest
    (loader, first ++ more, logged ++ later)

def loadAll (loader : Loader) (root : Node) (path : Path) :
    Except LoadFailure (List Resource) × Loader × List Event :=
  match root.readDirectory path with
  | .error error => (.error (.file error), loader, [.enteredDirectory path])
  | .ok entries =>
    let (loader, resources, events) := loader.visitAll (Visit.walk path entries)
    (.ok resources, loader, events)

def openFile (loader : Loader) (root : Node) (path : Path) :
    Except LoadFailure (Resource × List Event) :=
  match ResourceKind.ofSuffix path.suffix with
  | .error error => .error (.resource error)
  | .ok kind =>
    match root.readFile path with
    | .error error => .error (.file error)
    | .ok bytes => (kind.load loader.table path bytes).mapError .resource

def loadPath (loader : Loader) (root : Node) (path : Path) :
    Except LoadFailure (List Resource) × Loader × List Event :=
  match loader.openFile root path with
  | .error failure => (.error failure, loader, [])
  | .ok (resource, events) => (.ok [resource], loader.keep resource, events)

end Loader
end ScriptAudit
