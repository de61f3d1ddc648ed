import Mathlib.Data.List.Perm.Basic
import ScriptAudit.Proofs.Files.Traversal
import ScriptAudit.Proofs.Text.Utf8

/-!
The files below a path, in any tree. A walk meets every file below a directory, at whatever depth,
if the path of the file can be asked for: a path that has become too long is passed over with all
that is below it. The files are met by ascending paths if no directory has a name twice.
-/
namespace ScriptAudit

theorem Text.join_concat (separator : Text) (parts : List Text) (part : Text) :
    ∃ tail, join separator (parts ++ [part]) = join separator parts ++ tail := by
  induction parts with
  | nil => exact ⟨_, rfl⟩
  | cons first rest ih =>
      cases rest with
      | nil =>
          refine ⟨separator ++ part, ?_⟩
          simp [join, List.intercalate_cons_cons]
      | cons second others =>
          obtain ⟨tail, longer⟩ := ih
          refine ⟨tail, ?_⟩
          simp only [join, List.cons_append, List.intercalate_cons_cons] at longer ⊢
          rw [longer, List.append_assoc, List.append_assoc, List.append_assoc]

theorem Text.toName_append {front back : Text} {bytes : List UInt8}
    (encoded : toName (front ++ back) = .ok bytes) :
    ∃ first second, toName front = .ok first ∧ bytes = first ++ second := by
  obtain ⟨parts, all, rfl⟩ := (encodeBy_eq_ok_iff _ _ _).mp encoded
  rw [List.mapM_append] at all
  cases start : front.mapM nameUtf8? with
  | none => simp [start] at all
  | some first =>
      cases rest : back.mapM nameUtf8? with
      | none => simp [start, rest] at all
      | some second =>
          simp only [start, rest, Option.bind_eq_bind, Option.bind_some, Option.pure_def,
            Option.some.injEq] at all
          refine ⟨first.flatten, second.flatten, ?_, ?_⟩
          · exact (encodeBy_eq_ok_iff _ _ _).mpr ⟨first, start, rfl⟩
          · rw [← all, List.flatten_append]

namespace Path

/-- A path can be asked for if it can be written in bytes, not too many and none of them zero. -/
def askable (path : Path) : Bool :=
  path.text.toName.toOption.any fun bytes => 0 ∉ bytes ∧ bytes.length ≤ sizeLimit

theorem askable_iff {path : Path} : path.askable = true ↔
    ∃ bytes, path.text.toName = .ok bytes ∧ 0 ∉ bytes ∧ bytes.length ≤ sizeLimit := by
  unfold askable
  cases path.text.toName <;> simp [Except.toOption]

theorem askable_iff_settle {path : Path} :
    path.askable = true ↔ ∃ names, path.settle = .ok names := by
  unfold askable settle
  cases path.text.toName with
  | error error => simp [Except.toOption]
  | ok bytes =>
      by_cases zero : 0 ∈ bytes
      · simp [Except.toOption, zero]
      · by_cases long : sizeLimit < bytes.length
        · simp [Except.toOption, zero, long]
        · simp [Except.toOption, zero, long, Nat.le_of_not_lt long]

/-- A path that has names is written in front of all that is below it. -/
theorem text_child {path : Path} (named : path.names ≠ []) (name : Text) :
    ∃ tail, (path.child name).text = path.text ++ tail := by
  obtain ⟨names⟩ := path
  cases names with
  | nil => exact (named rfl).elim
  | cons first rest =>
      simp only [child, text, List.cons_append]
      by_cases root : isRoot first = true
      · obtain ⟨tail, longer⟩ := Text.join_concat [slash] rest name
        exact ⟨tail, by simp only [root, ↓reduceIte, longer, List.append_assoc]⟩
      · obtain ⟨tail, longer⟩ := Text.join_concat [slash] (first :: rest) name
        exact ⟨tail, by simpa only [root, Bool.false_eq_true, ↓reduceIte, List.cons_append]
          using longer⟩

theorem askable_of_child {path : Path} {name : Text} (asked : (path.child name).askable = true) :
    path.askable = true := by
  by_cases named : path.names = []
  · -- The empty path is written as a dot, which a path below it does not begin with.
    have current : path = .current := congrArg Path.mk named
    rw [current]
    decide +kernel
  · obtain ⟨bytes, encoded, zero, short⟩ := askable_iff.mp asked
    obtain ⟨tail, longer⟩ := text_child named name
    rw [longer] at encoded
    obtain ⟨first, second, start, rfl⟩ := Text.toName_append encoded
    rw [List.length_append] at short
    refine askable_iff.mpr ⟨first, start, ?_, by omega⟩
    exact fun inside => zero (List.mem_append_left second inside)

/-- What can be asked for below a path shows that the path itself can. -/
theorem askable_of_below {path longer : Path} {tail : List Text}
    (below : longer.names = path.names ++ tail) (asked : longer.askable = true) :
    path.askable = true := by
  induction tail generalizing path with
  | nil =>
      have same : longer = path := congrArg Path.mk (below.trans (List.append_nil _))
      rw [← same]
      exact asked
  | cons name tail ih =>
      apply askable_of_child
      apply @ih (path.child name)
      rw [below, child, List.append_assoc]
      rfl

end Path

namespace Node

theorem sizeOf_entry {entries : List (Text × Node)} {entry : Text × Node}
    (member : entry ∈ entries) : sizeOf entry.2 < sizeOf (directory entries) := by
  have smaller := List.sizeOf_lt_of_mem member
  obtain ⟨name, node⟩ := entry
  simp only [Prod.mk.sizeOf_spec, directory.sizeOf_spec] at smaller ⊢
  omega

/-- Induction on a tree, with the hypothesis for each entry of a directory. -/
@[elab_as_elim]
theorem induction {motive : Node → Prop} (file : ∀ bytes, motive (.file bytes))
    (directory : ∀ entries, (∀ entry ∈ entries, motive entry.2) → motive (.directory entries)) :
    ∀ node, motive node
  | .file bytes => file bytes
  | .directory entries => directory entries fun entry member =>
      have := sizeOf_entry member
      induction file directory entry.2
termination_by node => sizeOf node
decreasing_by exact this

theorem files_directory (path : Path) (entries : List (Text × Node)) :
    (directory entries).files path =
      entries.flatMap fun entry => entry.2.files (path.child entry.1) := by
  rw [files, filesOf_eq]

theorem names_of_mem_files {node : Node} {path : Path} {file : Path × List UInt8}
    (member : file ∈ node.files path) : ∃ tail, file.1.names = path.names ++ tail := by
  induction node using Node.induction generalizing path with
  | file bytes =>
      rw [files, List.mem_singleton] at member
      exact ⟨[], by rw [member, List.append_nil]⟩
  | directory entries ih =>
      rw [files_directory] at member
      obtain ⟨entry, held, inside⟩ := List.mem_flatMap.mp member
      obtain ⟨tail, below⟩ := ih entry held inside
      exact ⟨entry.1 :: tail, by rw [below, Path.child, List.append_assoc]; rfl⟩

inductive Distinct : Node → Prop where
  | file (bytes : List UInt8) : Distinct (.file bytes)
  | directory {entries : List (Text × Node)} : (entries.map Prod.fst).Nodup →
      (∀ entry ∈ entries, Distinct entry.2) → Distinct (.directory entries)

end Node

namespace Visit

def file? : Visit → Option (Path × List UInt8)
  | file path bytes => some (path, bytes)
  | enter _ => none
  | leave _ => none
  | refused _ _ => none

def filesIn (visits : List Visit) : List (Path × List UInt8) := visits.filterMap file?

theorem filesIn_leaf (file : Path × List UInt8) :
    filesIn [leaf file] = [file].filter fun file => file.1.askable := by
  have asked := @Path.askable_iff_settle file.1
  unfold leaf
  cases settled : file.1.settle with
  | ok names => simp [filesIn, file?, asked.mpr ⟨names, settled⟩]
  | error error =>
      have refused : ¬ file.1.askable = true := by
        intro further
        obtain ⟨names, found⟩ := asked.mp further
        cases settled.symm.trans found
      simp [filesIn, file?, refused]

theorem ofNode_refused {path : Path} {error : FileError} (node : Node)
    (asked : path.settle = .error error) : ofNode path node = [.refused path error] := by
  unfold ofNode
  rw [asked]

theorem filesIn_flatMap {α : Type} (items : List α) (visits : α → List Visit) :
    filesIn (items.flatMap visits) = items.flatMap fun item => filesIn (visits item) :=
  List.filterMap_flatMap

theorem filesIn_directory {path : Path} {names : List Text} (entries : List (Text × Node))
    (asked : path.settle = .ok names) :
    filesIn (ofNode path (.directory entries)) =
      (byName entries).flatMap fun entry => filesIn (ofNode (path.child entry.1) entry.2) := by
  rw [ofNode_directory entries asked, ← filesIn_flatMap]
  simp [filesIn, file?, List.filterMap_cons]

/-- A node is visited with all its files, as far as they can be asked for. -/
theorem filesIn_ofNode_perm (path : Path) (node : Node) :
    (filesIn (ofNode path node)).Perm ((node.files path).filter fun file => file.1.askable) := by
  induction node using Node.induction generalizing path with
  | file bytes => rw [ofNode_file, Node.files, filesIn_leaf]
  | directory entries ih =>
      cases asked : path.settle with
      | error error =>
          -- Nothing below the directory can be asked for either.
          have none : ((Node.directory entries).files path).filter (fun file => file.1.askable) =
              [] := by
            apply List.filter_eq_nil_iff.mpr
            intro file member further
            obtain ⟨tail, below⟩ := Node.names_of_mem_files member
            obtain ⟨names, settled⟩ :=
              Path.askable_iff_settle.mp (Path.askable_of_below below further)
            cases asked.symm.trans settled
          rw [none, ofNode_refused _ asked]
          exact .nil
      | ok names =>
          rw [filesIn_directory entries asked, Node.files_directory, List.filter_flatMap]
          have same : (byName entries).Perm entries := List.mergeSort_perm entries _
          exact same.flatMap fun entry held => ih entry (same.mem_iff.mp held) _

theorem names_of_mem_filesIn {path : Path} {node : Node} {file : Path × List UInt8}
    (member : file ∈ filesIn (ofNode path node)) : ∃ tail, file.1.names = path.names ++ tail :=
  Node.names_of_mem_files
    (List.mem_of_mem_filter ((filesIn_ofNode_perm path node).mem_iff.mp member))

theorem filesIn_ofNode_ascending {node : Node} (distinct : node.Distinct) (path : Path) :
    (filesIn (ofNode path node)).Pairwise fun one other => one.1.Before other.1 := by
  induction distinct generalizing path with
  | file bytes =>
      rw [ofNode_file, filesIn_leaf]
      exact (List.pairwise_singleton _ _).filter _
  | @directory entries names _ ih =>
      cases asked : path.settle with
      | error error =>
          rw [ofNode_refused _ asked]
          exact .nil
      | ok _ =>
          rw [filesIn_directory entries asked]
          have same : (byName entries).Perm entries := List.mergeSort_perm entries _
          refine List.pairwise_flatMap.mpr ⟨?_, ?_⟩
          · intro entry held
            exact ih entry (same.mem_iff.mp held) _
          · -- Paths below two entries differ first in the names of the entries.
            refine (byName_ascending names).imp ?_
            intro first second order one here other there
            obtain ⟨_, left⟩ := names_of_mem_filesIn here
            obtain ⟨_, right⟩ := names_of_mem_filesIn there
            rw [Path.child, List.append_assoc] at left right
            exact Path.before_of_names order left right

theorem filesIn_walk {path : Path} {names : List Text} (entries : List (Text × Node))
    (asked : path.settle = .ok names) :
    filesIn (walk path entries) = filesIn (ofNode path (.directory entries)) := by
  rw [filesIn_directory entries asked, walk, byName_blocks, ← filesIn_flatMap]
  exact List.filterMap_cons_none rfl

end Visit

/-- The paths of all files below a path that can be asked for, or the path itself if it leads to a
file; by ascending paths, if no directory has a name twice. -/
def Node.FilesUnder (root : Node) (path : Path) (files : List Path) : Prop :=
  ∃ node, root.resolve path = .ok node ∧
    files.Perm (((node.files path).map Prod.fst).filter Path.askable) ∧
    (node.Distinct → files.Pairwise Path.Before)

theorem Node.filesUnder_ofNode {root node : Node} {path : Path}
    (found : root.resolve path = .ok node) :
    root.FilesUnder path ((Visit.filesIn (Visit.ofNode path node)).map Prod.fst) := by
  refine ⟨node, found, ?_, ?_⟩
  · have same := (Visit.filesIn_ofNode_perm path node).map Prod.fst
    rw [List.filter_map]
    exact same
  · intro distinct
    exact List.pairwise_map.mpr (Visit.filesIn_ofNode_ascending distinct path)

theorem Node.FilesUnder.perm {root node : Node} {path : Path} {files : List Path}
    (under : root.FilesUnder path files) (found : root.resolve path = .ok node) :
    files.Perm (((node.files path).map Prod.fst).filter Path.askable) := by
  obtain ⟨_, again, all, _⟩ := under
  cases found.symm.trans again
  exact all

end ScriptAudit
