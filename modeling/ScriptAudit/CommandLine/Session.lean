import ScriptAudit.Audit.Listing
import ScriptAudit.Command.Default
import ScriptAudit.CommandLine.Lookup
import ScriptAudit.CommandLine.Options
import ScriptAudit.Resource.Loader

/-! A run of the command line over a tree of files. The log file is opened first, then the
inputs are looked for, then the schema is read; after that come the look-ups, the loading
of all inputs, one status line per script, and the totals. Durations read `<time>`.

The bundled table is loaded once, before a run begins. The record that is logged then, with the
number of its commands, is part of no run and is left out here. -/
namespace ScriptAudit

structure Session where
  tree : Node
  base : Path
  level : Level := .warning
  logPlace : Option (List Text) := none
  out : Text := []
  err : Text := []

/-- Why a run ends before its end. A switch whose value was two dashes ends it where the
value is needed. -/
inductive Halt where
  | refused (text : Text)
  | file (error : FileError)
  | render (error : RenderError)
  | encoding (error : Text.EncodingError)
  | tooDeep (container : Json.Container)
  | noValue (switch : Switch)

inductive Outcome where
  | stopped (stop : Stop)
  | ran (result : Except Halt Bool) (session : Session)

/-- A file as it is now. The log may be one of the files that a walk meets. -/
def Visit.refresh (tree : Node) : Visit → Visit
  | .file path bytes =>
    match tree.readFile path with
    | .ok now => .file path now
    | .error _ => .file path bytes
  | visit => visit

namespace Session

/-- Steps keep what was written before they stop. -/
abbrev Run := EStateM Halt Session

def record (session : Session) (events : List Event) : Session :=
  let text := Text.ofLines (Event.linesFrom session.level events)
  match session.logPlace with
  | none => { session with err := session.err ++ text }
  | some place => { session with tree := session.tree.appendAt place text.shownUtf8 }

def log (events : List Event) : Run Unit := modify fun session => session.record events

def print (text : Text) : Run Unit :=
  modify fun session => { session with out := session.out ++ text }

def printLine (text : Text) : Run Unit := print (Text.ofLines [text])

/-- A cause that is found on the way ends the run. -/
def orHalt {ε α : Type} (halt : ε → Halt) : Except ε α → Run α
  | .ok value => return value
  | .error error => throw (halt error)

def orFile {α : Type} (result : Except FileError α) : Run α := orHalt .file result

def orRender {α : Type} (result : Except RenderError α) : Run α := orHalt .render result

def levelOf : Nat → Level
  | 0 => .warning
  | 1 => .info
  | _ => .debug

/-- The log file is made if need be and appended to. It is asked for by its absolute path. -/
def openLog : Option Path → Run Unit
  | none => return ()
  | some path => do
    let _ ← orFile ((← get).base.under path).collapse.settle
    let place ← orFile ((← get).tree.placeForFile path.collapse)
    modify fun session =>
      { session with logPlace := some place, tree := session.tree.appendAt place [] }

def requireInputs : List Path → Run Unit
  | [] => return ()
  | path :: rest => do
    if ← orFile ((← get).tree.holds path) then requireInputs rest
    else throw (.refused ("missing input file: " ++ path.text))

def schemaAt (tree : Node) (path : Path) : Except TableError Table :=
  match tree.readFile path with
  | .ok bytes => Table.ofBytes bytes
  | .error _ => .error (.schema .unreadable)

def chooseTable : Option (Given Path) → Run Table
  | none => return .bundled
  | some .dashes => throw (.noValue .commands)
  | some (.value path) => do
    match schemaAt (← get).tree path with
    | .ok table => return table
    | .error (.schema error) => throw (.refused ("invalid command schema: " ++ error.message))
    | .error (.tooDeep container) => throw (.tooDeep container)

def requireValues (switch : Switch) (given : List (Given Text)) : Run Unit :=
  if given.any Given.isDashes then throw (.noValue switch) else return ()

/-- Looks up the commands and the cheats that are asked for. Whether all are known. -/
def lookUp (table : Table) (options : Options) : Run Bool := do
  let tokens := Given.leading options.describe
  print (Lookup.commandText table tokens)
  requireValues .describe options.describe
  let codes := Given.leading options.cheat
  print (Lookup.cheatText codes)
  requireValues .cheat options.cheat
  return Lookup.unknownCommands table tokens = 0 && Lookup.unknownCheats codes = 0

def walkAll (loader : Loader) : List Visit → Run (Loader × List Resource)
  | [] => return (loader, [])
  | visit :: rest => do
    let (loader, first, events) := loader.visit (visit.refresh (← get).tree)
    log events
    let (loader, more) ← walkAll loader rest
    return (loader, first ++ more)

def collectPath (loader : Loader) (path : Path) : Run (Loader × List Resource) := do
  let tree := (← get).tree
  match tree.readDirectory path with
  | .ok entries => walkAll loader (Visit.walk path entries)
  | .error _ =>
    let (result, loader, events) := loader.loadPath tree path
    log events
    match result with
    | .ok resources => return (loader, resources)
    | .error failure =>
      printLine (path.text ++ ": unable to load (" ++ failure.message path ++ ")")
      return (loader, [])

def collect (loader : Loader) : List Path → Run (Loader × List Resource)
  | [] => return (loader, [])
  | path :: rest => do
    let (loader, first) ← collectPath loader path
    let (loader, more) ← collect loader rest
    return (loader, first ++ more)

def statusLine (script : LoadedScript) : Text :=
  script.path.text ++ ": " ++ (script.issue.map Issue.description).getD "compatible"

def listingPath (directory : Path) (script : LoadedScript) : Path :=
  directory.child (script.path.name ++ Text.ofString ".lst")

/-- The limit matters as soon as there is an instruction. -/
def listingOf (limit : Option (Given Int)) (graph : Graph) : Run Text :=
  match limit with
  | none => orRender (Listing.ofGraph graph none)
  | some (.value most) => orRender (Listing.ofGraph graph (some most))
  | some .dashes =>
    if graph.instructions.isEmpty then orRender (Listing.ofGraph graph none)
    else throw (.noValue .maxInstructions)

/-- The file is made before its text is encoded. -/
def writeFile (target : Path) (text : Text) : Run Unit := do
  let place ← orFile ((← get).tree.placeForFile target)
  let write (bytes : Bytes) : Run Unit :=
    modify fun session => { session with tree := session.tree.writeAt place bytes }
  match text.toUtf8 with
  | .ok bytes => write bytes
  | .error error =>
    write []
    throw (.encoding error)

def writeListing (directory : Path) (script : LoadedScript) (listing : Run Text) :
    Run Unit := do
  let tree ← orFile ((← get).tree.makeDirectories directory)
  modify fun session => { session with tree }
  let target := listingPath directory script
  writeFile target (← listing)
  log [.listingWritten target]

def reportListing (options : Options) (table : Table) (script : LoadedScript) : Run Unit := do
  let (graph, events) := explore table script.data
  log events
  let listing := listingOf options.maxInstructions graph
  if options.listing then print (← listing)
  match options.listingOut with
  | some directory => writeListing directory script listing
  | none => return ()

def reportScript (options : Options) (table : Table) (script : LoadedScript) : Run Unit := do
  printLine (statusLine script)
  if options.listing || options.listingOut.isSome then reportListing options table script

def reportScripts (options : Options) (table : Table) : List LoadedScript → Run Unit
  | [] => return ()
  | script :: rest => do
    reportScript options table script
    reportScripts options table rest

def scriptsOf (resources : List Resource) : List LoadedScript :=
  resources.filterMap fun
    | .script script => some script
    | .language _ _ => none

def flagged (scripts : List LoadedScript) : Nat :=
  (scripts.filter fun script => !script.compatible).length

def summary (scripts : List LoadedScript) (store : Language.Entries) : Text :=
  "scripts: " ++ toString scripts.length ++ "\nflagged: " ++ toString (flagged scripts) ++
    "\nlanguage entries: " ++ toString store.length ++ "\ntotal execution time: <time>s\n"

/-- What there is to report on. -/
structure Collected where
  table : Table
  known : Bool
  loader : Loader
  resources : List Resource

def gather (options : Options) : Run Collected := do
  modify fun session => { session with level := levelOf options.verbose }
  openLog options.logFile
  requireInputs options.inputs
  let table ← chooseTable options.commands
  let known ← lookUp table options
  let (loader, resources) ← collect { table } options.inputs
  return { table, known, loader, resources }

/-- Whether something was found: a script with an issue, or a look-up that failed. -/
def perform (options : Options) : Run Bool := do
  let collected ← gather options
  let scripts := scriptsOf collected.resources
  reportScripts options collected.table scripts
  if options.summary then print (summary scripts collected.loader.store)
  return flagged scripts != 0 || !collected.known

end Session

/-- Runs in a directory with a tree of files; `base` is its absolute path. -/
def runCommandLine (base : Path) (args : List Text) (tree : Node) : Outcome :=
  match Options.parse args with
  | .error stop => .stopped stop
  | .ok options =>
    match Session.perform options { tree, base } with
    | .ok found session => .ran (.ok found) session
    | .error halt session => .ran (.error halt) session

end ScriptAudit
