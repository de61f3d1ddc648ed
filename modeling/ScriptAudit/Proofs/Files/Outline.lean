import ScriptAudit.Proofs.Files.Traversal
import ScriptAudit.Proofs.Files.Writing

/-!
Trees without the contents of their files. Where a path leads, what a directory lists and the
way of a walk depend on the outline of a tree only. A file that is written over keeps the
outline, so a walk of the tree before and a walk of the tree after go the same way.
-/
namespace ScriptAudit

namespace Node

mutual

/-- The tree with all its files empty. -/
def outline : Node → Node
  | file _ => file []
  | directory entries => directory (outlineOf entries)

def outlineOf : List (Text × Node) → List (Text × Node)
  | [] => []
  | (name, node) :: rest => (name, node.outline) :: outlineOf rest

end

theorem outlineOf_eq (entries : List (Text × Node)) :
    outlineOf entries = entries.map fun entry => (entry.1, entry.2.outline) := by
  induction entries with
  | nil => rfl
  | cons entry rest ih => rw [outlineOf, ih, List.map_cons]

theorem child?_outline (name : Text) (node : Node) :
    node.outline.child? name = (node.child? name).map outline := by
  cases node with
  | file bytes => rfl
  | directory entries =>
      simp only [outline, child?, outlineOf_eq]
      exact Association.get?_map name outline entries

theorem at?_outline (node : Node) (place : List Text) :
    node.outline.at? place = (node.at? place).map outline := by
  induction place generalizing node with
  | nil => rfl
  | cons name place ih =>
      simp only [at?, child?_outline]
      cases node.child? name with
      | none => rfl
      | some next => exact ih next

theorem step_outline (root : Node) (place : List Text) (name : Text) :
    root.outline.step place name = root.step place name := by
  simp only [step, at?_outline]
  cases root.at? place with
  | none => rfl
  | some node =>
      cases node with
      | file bytes => rfl
      | directory entries =>
          have same := child?_outline name (directory entries)
          simp only [outline] at same
          simp only [Option.map_some, outline, same, Option.isSome_map]

theorem locate_outline (root : Node) (names : List Text) :
    root.outline.locate names = root.locate names := by
  unfold locate
  congr 1
  funext place name
  exact step_outline root place name

theorem resolve_outline (root : Node) (path : Path) :
    root.outline.resolve path = (root.resolve path).map outline := by
  unfold resolve
  cases path.settle with
  | error error => rfl
  | ok names =>
      simp only [bind, Except.bind, locate_outline]
      cases root.locate names with
      | error error => rfl
      | ok place =>
          simp only [at?_outline]
          cases root.at? place <;> rfl

theorem readDirectory_outline (root : Node) (path : Path) :
    root.outline.readDirectory path = (root.readDirectory path).map outlineOf := by
  unfold readDirectory
  rw [resolve_outline]
  cases root.resolve path with
  | error error => rfl
  | ok node => cases node <;> rfl

theorem readFile_outline (root : Node) (path : Path) :
    root.outline.readFile path = (root.readFile path).map fun _ => [] := by
  unfold readFile
  rw [resolve_outline]
  cases root.resolve path with
  | error error => rfl
  | ok node => cases node <;> rfl

theorem outline_writeAt {root : Node} {place : List Text} {old : List UInt8}
    (held : root.at? place = some (file old)) (bytes : List UInt8) :
    (root.writeAt place bytes).outline = root.outline := by
  unfold writeAt
  induction place generalizing root with
  | nil =>
      cases held
      rfl
  | cons name place ih =>
      cases root with
      | file bytes => cases held
      | directory entries =>
          simp only [at?, child?] at held
          cases found : Association.get? name entries with
          | none =>
              rw [found] at held
              cases held
          | some below =>
              rw [found] at held
              simp only [insert, found, Option.getD_some, outline, outlineOf_eq,
                Association.put_map, ih held]
              rw [Association.put_of_get?]
              rw [Association.get?_map, found, Option.map_some]

end Node

namespace Visit

def outline : Visit → Visit
  | file path _ => file path []
  | visit => visit

theorem flatMap_byName_map (f : Visit → Visit) (blocks : List (Text × List Visit)) :
    (byName (blocks.map fun block => (block.1, block.2.map f))).flatMap (·.2) =
      ((byName blocks).flatMap (·.2)).map f := by
  rw [byName_map, List.flatMap_map, List.map_flatMap]

mutual

theorem ofNode_outline (path : Path) (node : Node) :
    ofNode path node.outline = (ofNode path node).map outline := by
  cases node with
  | file bytes =>
      unfold ofNode
      cases path.settle <;> rfl
  | directory entries =>
      unfold ofNode
      cases path.settle with
      | error error => rfl
      | ok names =>
          simp only [Node.outline, blocks_outline path entries, flatMap_byName_map,
            List.map_cons, List.map_append, List.map_nil, outline]

theorem blocks_outline (path : Path) (entries : List (Text × Node)) :
    blocks path (Node.outlineOf entries) =
      (blocks path entries).map fun block => (block.1, block.2.map outline) := by
  cases entries with
  | nil => rfl
  | cons entry rest =>
      obtain ⟨name, node⟩ := entry
      simp only [Node.outlineOf, blocks, List.map_cons, ofNode_outline (path.child name) node,
        blocks_outline path rest]

end

/-- The way of a walk, whatever the files hold. -/
theorem walk_outline (path : Path) (entries : List (Text × Node)) :
    walk path (Node.outlineOf entries) = (walk path entries).map outline := by
  simp only [walk, blocks_outline, flatMap_byName_map, List.map_cons, outline]

end Visit

end ScriptAudit
