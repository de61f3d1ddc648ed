import ScriptAudit.Proofs.Audit.Program
import ScriptAudit.Proofs.Files.Traversal
import ScriptAudit.Proofs.Steps
import ScriptAudit.Resource.Loader

/-!
Loading a directory. What a file contributes depends on the table, its path and its bytes
alone: one resource if it can be loaded, else one complaint. A directory gives what its files
give one by one, in the depth-first order of the walk, so a file that cannot be loaded is
missed nowhere else.
-/
namespace ScriptAudit

def Event.isNotLoaded : Event → Bool
  | notLoaded _ _ => true
  | _ => false

theorem explore_log (table : Table) (data : Bytes) :
    (explore table data).2 =
      ((explore table data).1.failures.map fun entry => .undecodable entry.1 entry.2) ++
        [.disassembled (explore table data).1.instructions.length
          (explore table data).1.failures.length] := by
  obtain ⟨⟨recorded, _⟩, _⟩ := Exploration.run_ends table data
  simp only [explore, recorded.logged]

theorem check_quiet (table : Table) (data : Bytes) :
    (check table (.bytes data)).2.filter Event.isNotLoaded = [] := by
  have failures : ((explore table data).1.failures.map fun entry =>
      Event.undecodable entry.1 entry.2).filter Event.isNotLoaded = [] := by
    apply List.filter_eq_nil_iff.mpr
    intro event member
    obtain ⟨entry, _, rfl⟩ := List.mem_map.mp member
    simp [Event.isNotLoaded]
  simp only [check, checkStrict, checkBytes, explore_log, Graph.classify, List.filter_append,
    failures]
  cases (explore table data).1.firstIssue? <;> rfl

theorem Language.warnings_quiet (text : Text) :
    (Language.warnings text).filter Event.isNotLoaded = [] := by
  apply List.filter_eq_nil_iff.mpr
  intro event member
  obtain ⟨line, _, warns⟩ := List.mem_filterMap.mp member
  cases line <;> cases warns
  simp [Event.isNotLoaded]

theorem Resource.ofFile_quiet {table : Table} {path : Path} {bytes : Bytes}
    {resource : Resource} {events : List Event}
    (loaded : Resource.ofFile table path bytes = .ok (resource, events)) :
    events.filter Event.isNotLoaded = [] := by
  have scriptQuiet : ((check table (.bytes bytes)).2 ++
      [Event.scriptChecked path (check table (.bytes bytes)).1]).filter Event.isNotLoaded = [] := by
    rw [List.filter_append, check_quiet]
    rfl
  obtain ⟨kind, _, loaded⟩ := Steps.except_ok_iff.mp loaded
  cases kind with
  | language =>
      simp only [ResourceKind.load] at loaded
      split at loaded
      · cases loaded
      · cases loaded
        exact Language.warnings_quiet _
  | script =>
      cases loaded
      exact scriptQuiet
  | invokedScript =>
      cases loaded
      exact scriptQuiet

namespace Loader

def kept : Except LoadFailure (List Resource) → List Resource
  | .ok resources => resources
  | .error _ => []

/-- What a walk logs about a file that is not loaded: what is wrong with its path, if it cannot
even be asked for, or why the load failed. -/
def complaints (path : Path) : Except LoadFailure (List Resource) → List Event
  | .ok _ => []
  | .error failure =>
    match path.settle with
    | .ok _ => [.notLoaded path failure]
    | .error error => [.notLoaded path (.file error)]

theorem visit_table (loader : Loader) (visit : Visit) :
    (loader.visit visit).1.table = loader.table := by
  cases visit with
  | file path bytes =>
      simp only [Loader.visit]
      cases Resource.ofFile loader.table path bytes <;> rfl
  | _ => rfl

theorem visit_of_table {one other : Loader} (same : one.table = other.table) (visit : Visit) :
    (one.visit visit).2 = (other.visit visit).2 := by
  cases visit with
  | file path bytes =>
      simp only [Loader.visit, same]
      cases Resource.ofFile other.table path bytes <;> rfl
  | _ => rfl

/-- A walk gives what its visits give, each taken by itself. -/
theorem visitAll_eq (loader : Loader) (visits : List Visit) :
    (loader.visitAll visits).2 =
      (visits.flatMap fun visit => (loader.visit visit).2.1,
        visits.flatMap fun visit => (loader.visit visit).2.2) := by
  induction visits generalizing loader with
  | nil => rfl
  | cons visit rest ih =>
      have same := visit_of_table (visit_table loader visit)
      have tail := ih (loader.visit visit).1
      simp only [same] at tail
      simp only [visitAll, tail, List.flatMap_cons]

theorem visit_of_not_leaf (loader : Loader) {visit : Visit} (other : visit.isLeaf = false) :
    (loader.visit visit).2.1 = [] ∧
      (loader.visit visit).2.2.filter Event.isNotLoaded = [] := by
  cases visit with
  | enter path => exact ⟨rfl, rfl⟩
  | leave path => exact ⟨rfl, rfl⟩
  | file path bytes => cases other
  | refused path error => cases other

theorem flatMap_leaves {α : Type} (visits : List Visit) (f : Visit → List α)
    (none : ∀ visit, visit.isLeaf = false → f visit = []) :
    visits.flatMap f = (visits.filter Visit.isLeaf).flatMap f := by
  induction visits with
  | nil => rfl
  | cons visit rest ih =>
      by_cases leaf : visit.isLeaf = true
      · rw [List.filter_cons_of_pos leaf, List.flatMap_cons, List.flatMap_cons, ih]
      · rw [List.filter_cons_of_neg leaf, List.flatMap_cons, none visit (by simpa using leaf), ih]
        rfl

/-- What a directory gives, file by file. -/
theorem loadAll_files {loader : Loader} {root : Node} {path : Path}
    {entries : List (Text × Node)} {files : List (Path × Bytes)}
    (listed : root.readDirectory path = .ok entries)
    (visits : (Visit.walk path entries).filter Visit.isLeaf = files.map Visit.leaf) :
    (loader.loadAll root path).1 =
        .ok (files.flatMap fun file => (loader.visit (.leaf file)).2.1) ∧
      (loader.loadAll root path).2.2.filter Event.isNotLoaded =
        files.flatMap fun file =>
          (loader.visit (.leaf file)).2.2.filter Event.isNotLoaded := by
  simp only [loadAll, listed, visitAll_eq, List.filter_flatMap]
  constructor
  · rw [flatMap_leaves _ _ fun _ other => (visit_of_not_leaf loader other).1, visits,
      List.flatMap_map]
  · rw [flatMap_leaves _ _ fun _ other => (visit_of_not_leaf loader other).2, visits,
      List.flatMap_map]

theorem openFile_of_read (loader : Loader) {root : Node} {path : Path} {bytes : Bytes}
    (read : root.readFile path = .ok bytes) :
    loader.openFile root path =
      (Resource.ofFile loader.table path bytes).mapError .resource := by
  unfold openFile Resource.ofFile
  cases ResourceKind.ofSuffix path.suffix with
  | error error => rfl
  | ok kind => simp only [read, bind, Except.bind]

theorem loadPath_of_refused (loader : Loader) (root : Node) {path : Path} {error : FileError}
    (refused : path.settle = .error error) :
    ∃ failure, (loader.loadPath root path).1 = .error failure := by
  have unread : root.readFile path = .error error := by
    simp [Node.readFile, Node.resolve, refused, bind, Except.bind]
  unfold loadPath openFile
  rw [unread]
  cases ResourceKind.ofSuffix path.suffix with
  | error unknown => exact ⟨_, rfl⟩
  | ok kind => exact ⟨_, rfl⟩

/-- A visited file gives what loading it by its path gives. -/
theorem visit_leaf (loader : Loader) {root : Node} {file : Path × Bytes}
    (reads : ∀ names, file.1.settle = .ok names → root.readFile file.1 = .ok file.2) :
    (loader.visit (.leaf file)).2.1 = kept (loader.loadPath root file.1).1 ∧
      (loader.visit (.leaf file)).2.2.filter Event.isNotLoaded =
        complaints file.1 (loader.loadPath root file.1).1 := by
  obtain ⟨path, bytes⟩ := file
  cases settled : path.settle with
  | error error =>
      obtain ⟨failure, failed⟩ := loader.loadPath_of_refused root settled
      simp only [Visit.leaf, settled, Loader.visit, failed, kept, complaints]
      exact ⟨trivial, rfl⟩
  | ok names =>
      have opened := loader.openFile_of_read (reads names settled)
      simp only [Visit.leaf, settled, Loader.visit, loadPath, opened]
      cases loaded : Resource.ofFile loader.table path bytes with
      | error error =>
          simp only [Except.mapError, kept, complaints, settled]
          exact ⟨trivial, rfl⟩
      | ok result =>
          simp only [Except.mapError, kept, complaints, List.filter_append,
            Resource.ofFile_quiet loaded]
          exact ⟨trivial, rfl⟩

theorem kept_or_complaint (loader : Loader) (root : Node) (path : Path) :
    (kept (loader.loadPath root path).1).length +
      (complaints path (loader.loadPath root path).1).length = 1 := by
  unfold loadPath
  cases loader.openFile root path with
  | error failure =>
      simp only [kept, complaints]
      cases path.settle <;> rfl
  | ok result => rfl

theorem visit_of_depthFirst (loader : Loader) {root : Node} {path : Path}
    {entries : List (Text × Node)} {files : List (Path × Bytes)}
    (listed : root.readDirectory path = .ok entries)
    (readable : Node.Readable path (.directory entries))
    (depthFirst : Visit.DepthFirst path entries files) (file : Path × Bytes)
    (member : file ∈ files) :
    (loader.visit (.leaf file)).2.1 = kept (loader.loadPath root file.1).1 ∧
      (loader.visit (.leaf file)).2.2.filter Event.isNotLoaded =
        complaints file.1 (loader.loadPath root file.1).1 := by
  obtain ⟨order, same, _, traversal⟩ := depthFirst
  apply loader.visit_leaf
  apply traversal.readFile ((Node.readDirectory_ok_iff _ _ _).mp listed) _ file member
  intro entry inOrder
  exact readable.reaches entry (same.mem_iff.mp inOrder)

/-- A directory that can be walked is loaded, and gives what its files give, depth first and by
ascending names in each directory. Each file gives one resource or one complaint, those that
loading it by its path gives. With a file more that cannot be loaded, wherever it is in the
tree, the resources are the same, and there is one complaint more. -/
theorem loadAll_depth_first (loader : Loader) (root : Node) (path : Path)
    (entries : List (Text × Node)) (listed : root.readDirectory path = .ok entries)
    (readable : Node.Readable path (.directory entries)) :
    (∃ files, Visit.DepthFirst path entries files ∧
      (loader.loadAll root path).1 =
        .ok (files.flatMap fun file => kept (loader.loadPath root file.1).1) ∧
      (loader.loadAll root path).2.2.filter Event.isNotLoaded =
        (files.flatMap fun file => complaints file.1 (loader.loadPath root file.1).1) ∧
      ∀ file ∈ files, (kept (loader.loadPath root file.1).1).length +
        (complaints file.1 (loader.loadPath root file.1).1).length = 1) ∧
    ∀ (other : Node) (larger : List (Text × Node)) (added : Path × Bytes) (failure : LoadFailure),
      other.readDirectory path = .ok larger → Node.Readable path (.directory larger) →
      Node.AddedFile path entries larger added →
      (loader.loadPath other added.1).1 = .error failure →
      (loader.loadAll other path).1 = (loader.loadAll root path).1 ∧
      ∃ front back,
        (loader.loadAll root path).2.2.filter Event.isNotLoaded = front ++ back ∧
        (loader.loadAll other path).2.2.filter Event.isNotLoaded =
          front ++ complaints added.1 (.error failure) ++ back := by
  obtain ⟨files, depthFirst, visits⟩ := Visit.walk_depthFirst readable
  obtain ⟨resources, warnings⟩ := @loadAll_files loader root path entries files listed visits
  have leaves := loader.visit_of_depthFirst listed readable depthFirst
  constructor
  · refine ⟨files, depthFirst, ?_, ?_, ?_⟩
    · rw [resources]
      congr 1
      exact List.flatMap_congr fun file member => (leaves file member).1
    · rw [warnings]
      exact List.flatMap_congr fun file member => (leaves file member).2
    · intro file _
      exact loader.kept_or_complaint root file.1
  · intro other larger added failure listedLarger readableLarger addition failed
    obtain ⟨more, moreDepthFirst, moreVisits⟩ := Visit.walk_depthFirst readableLarger
    obtain ⟨moreResources, moreWarnings⟩ :=
      @loadAll_files loader other path larger more listedLarger moreVisits
    -- The file more is met in between, and gives nothing but its complaint.
    obtain ⟨front, back, rfl, rfl⟩ := addition.depthFirst depthFirst moreDepthFirst
    obtain ⟨nothing, complaint⟩ := loader.visit_of_depthFirst listedLarger readableLarger
      moreDepthFirst added (List.mem_append_right front List.mem_cons_self)
    rw [failed] at nothing complaint
    constructor
    · rw [moreResources, resources]
      simp only [List.flatMap_append, List.flatMap_cons, nothing, kept, List.nil_append]
    · refine ⟨front.flatMap fun file => (loader.visit (.leaf file)).2.2.filter Event.isNotLoaded,
        back.flatMap fun file => (loader.visit (.leaf file)).2.2.filter Event.isNotLoaded, ?_, ?_⟩
      · rw [warnings, List.flatMap_append]
      · rw [moreWarnings, List.flatMap_append, List.flatMap_cons, complaint, List.append_assoc]

def languageFile : Text × Node := ("e.fxt", .file [0x4B, 0x20, 0x76])

/-- A directory with a script, a file that is no resource, and a directory that is named like a
script and holds a language file behind other entries. -/
def shelfEntries (front : List (Text × Node)) : List (Text × Node) :=
  [("b.csa", .file [0x51, 0x00]), ("a.txt", .file []),
   ("c.csa", .directory (front ++ [languageFile]))]

def shelf (front : List (Text × Node)) : Node :=
  .directory [("d", .directory (shelfEntries front))]

def shelfPath : Path := Path.current.child "d"

def strayFile : Text × Node := ("f", .file [0x51, 0x00])

theorem shelf_listed (front : List (Text × Node)) :
    (shelf front).readDirectory shelfPath = .ok (shelfEntries front) := by
  have top : (shelf front).resolve Path.current = .ok (shelf front) :=
    (Node.resolve_ok_iff _ _ _).mpr ⟨[], [], by decide +kernel, rfl, rfl⟩
  have settled : shelfPath.settle = .ok ["d"] := by decide +kernel
  apply (Node.readDirectory_ok_iff _ _ _).mpr
  exact Node.resolve_child top (Association.get?_cons_self _ _ _) (by decide) (by decide) settled

theorem shelf_readable (front : List (Text × Node)) (few : front = [] ∨ front = [strayFile]) :
    Node.Readable shelfPath (.directory (shelfEntries front)) := by
  have outer : shelfPath.settle = .ok ["d"] := by decide +kernel
  have inner : (shelfPath.child "c.csa").settle = .ok ["d", "c.csa"] := by decide +kernel
  have folder : Node.Readable (shelfPath.child "c.csa")
      (.directory (front ++ [languageFile])) := by
    rcases few with rfl | rfl
    · exact .directory inner (by decide) (by decide)
        (by simp [languageFile, Node.Readable.file])
    · exact .directory inner (by decide) (by decide)
        (by simp [languageFile, strayFile, Node.Readable.file])
  refine .directory outer (by simp only [shelfEntries, List.map_cons]; decide) ?_ ?_
  · simp only [shelfEntries, List.forall_mem_cons]
    decide
  · simp only [shelfEntries, List.forall_mem_cons, List.not_mem_nil, false_implies, implies_true,
      and_true]
    exact ⟨.file _ _, .file _ _, folder⟩

theorem shelf_loaded :
    (∃ files, Visit.DepthFirst shelfPath (shelfEntries []) files ∧
      (loadAll ⟨waitTable, []⟩ (shelf []) shelfPath).1 = .ok (files.flatMap fun file =>
        kept (loadPath ⟨waitTable, []⟩ (shelf []) file.1).1)) ∧
    Node.AddedFile shelfPath (shelfEntries []) (shelfEntries [strayFile])
      ((shelfPath.child "c.csa").child "f", [0x51, 0x00]) ∧
    (loadAll ⟨waitTable, []⟩ (shelf [strayFile]) shelfPath).1 =
      (loadAll ⟨waitTable, []⟩ (shelf []) shelfPath).1 := by
  have added : Node.AddedFile shelfPath (shelfEntries []) (shelfEntries [strayFile])
      ((shelfPath.child "c.csa").child "f", [0x51, 0x00]) :=
    @Node.AddedFile.deeper _ (shelfEntries [] |>.take 2) [] _ _ _ _
      (@Node.AddedFile.here _ [] _ "f" [0x51, 0x00])
  have suffix : ResourceKind.ofSuffix ((shelfPath.child "c.csa").child "f").suffix =
      .error .extensionRequired := by decide +kernel
  have failed : (loadPath ⟨waitTable, []⟩ (shelf [strayFile])
      ((shelfPath.child "c.csa").child "f")).1 = .error (.resource .extensionRequired) := by
    simp only [loadPath, openFile, suffix]
  obtain ⟨⟨files, depthFirst, resources, _⟩, skipped⟩ := loadAll_depth_first ⟨waitTable, []⟩
    (shelf []) shelfPath (shelfEntries []) (shelf_listed []) (shelf_readable [] (Or.inl rfl))
  obtain ⟨same, _⟩ := skipped (shelf [strayFile]) (shelfEntries [strayFile]) _ _
    (shelf_listed [strayFile]) (shelf_readable [strayFile] (Or.inr rfl)) added failed
  exact ⟨⟨files, depthFirst, resources⟩, added, same⟩

end Loader

end ScriptAudit
