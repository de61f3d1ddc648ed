import ScriptAudit.Files.Tree

/-!
Where a path leads. A path that can be asked for is a list of names, followed one by one from
the root. So a path behind which a name stands leads to the node of that name, in the
directory to which the path itself leads.
-/
namespace ScriptAudit

namespace Path

theorem settle_names {path : Path} {names : List Text} (settled : path.settle = .ok names) :
    names = path.names.map settleName := by
  unfold settle at settled
  split at settled
  · cases settled
  · split at settled
    · cases settled
    · split at settled
      · cases settled
      · cases settled
        rfl

theorem settle_child {path : Path} {name : Text} {names longer : List Text}
    (settled : path.settle = .ok names) (further : (path.child name).settle = .ok longer) :
    longer = names ++ [settleName name] := by
  rw [settle_names settled, settle_names further, child, List.map_append]
  rfl

end Path

namespace Node

theorem at?_append (node : Node) (front back : List Text) :
    node.at? (front ++ back) = (node.at? front).bind fun below => below.at? back := by
  induction front generalizing node with
  | nil => rfl
  | cons name front ih =>
      simp only [List.cons_append, at?]
      cases node.child? name with
      | none => rfl
      | some next => exact ih next

theorem at?_concat (node : Node) (place : List Text) (name : Text) :
    node.at? (place ++ [name]) = (node.at? place).bind (child? name) := by
  rw [at?_append]
  congr 1
  funext below
  simp only [at?]
  cases below.child? name <;> rfl

theorem locate_concat (root : Node) (names : List Text) (name : Text) :
    root.locate (names ++ [name]) = root.locate names >>= fun place => root.step place name := by
  unfold locate
  rw [List.foldlM_append]
  congr 1
  funext place
  exact bind_pure _

/-- A name is followed in a directory: back, or onward to what has the name. -/
theorem step_ok_iff {root : Node} {place next : List Text} {name : Text} :
    root.step place name = .ok next ↔
      ∃ entries, root.at? place = some (directory entries) ∧
        if leadsBack place name then next = place.dropLast
        else (∃ node, root.at? (place ++ [name]) = some node) ∧ next = place ++ [name] := by
  rw [at?_concat, step]
  cases root.at? place with
  | none => simp
  | some node =>
      cases node with
      | file bytes => simp
      | directory entries =>
          cases leadsBack place name with
          | true => simp [eq_comm]
          | false => cases held : child? name (directory entries) <;> simp [held, eq_comm]

theorem step_of_child {root node : Node} {place : List Text} {entries : List (Text × Node)}
    {name : Text} (here : root.at? place = some (directory entries))
    (onward : leadsBack place name = false)
    (held : root.at? (place ++ [name]) = some node) :
    root.step place name = .ok (place ++ [name]) := by
  refine step_ok_iff.mpr ⟨entries, here, ?_⟩
  rw [onward]
  exact ⟨⟨node, held⟩, rfl⟩

theorem leadsBack_of_ne {name : Text} (place : List Text) (ordinary : name ≠ Path.above) :
    leadsBack place name = false := by
  simp [leadsBack, ordinary]

/-- A path leads to a node when it can be asked for and the node is at its place. -/
theorem resolve_ok_iff (root node : Node) (path : Path) :
    root.resolve path = .ok node ↔
      ∃ names place, path.settle = .ok names ∧ root.locate names = .ok place ∧
        root.at? place = some node := by
  unfold resolve
  cases path.settle with
  | error error => simp [bind, Except.bind]
  | ok names =>
      cases located : root.locate names with
      | error error => simp [bind, Except.bind, located]
      | ok place =>
          cases found : root.at? place <;> simp [bind, Except.bind, located, found]

theorem resolve_child {root node : Node} {path : Path} {entries : List (Text × Node)}
    {name : Text} {names : List Text} (found : root.resolve path = .ok (directory entries))
    (held : Association.get? name entries = some node) (ordinary : name ≠ Path.above)
    (plain : Path.settleName name = name) (settled : (path.child name).settle = .ok names) :
    root.resolve (path.child name) = .ok node := by
  obtain ⟨above, place, asked, located, here⟩ := (resolve_ok_iff _ _ _).mp found
  have there : root.at? (place ++ [name]) = some node := by
    rw [at?_concat, here]
    exact held
  apply (resolve_ok_iff _ _ _).mpr
  refine ⟨names, place ++ [name], settled, ?_, ?_⟩
  · rw [Path.settle_child asked settled, plain, locate_concat, located]
    exact step_of_child here (leadsBack_of_ne place ordinary) there
  · exact there

theorem holds_iff {root : Node} {path : Path} :
    root.holds path = .ok true ↔ ∃ node, root.resolve path = .ok node := by
  unfold holds
  cases root.resolve path with
  | ok node => simp
  | error error => cases error <;> simp

theorem readFile_ok_iff (root : Node) (path : Path) (bytes : List UInt8) :
    root.readFile path = .ok bytes ↔ root.resolve path = .ok (file bytes) := by
  unfold readFile
  cases root.resolve path with
  | error error => simp [bind, Except.bind]
  | ok node => cases node <;> simp [bind, Except.bind]

theorem readDirectory_ok_iff (root : Node) (path : Path) (entries : List (Text × Node)) :
    root.readDirectory path = .ok entries ↔ root.resolve path = .ok (directory entries) := by
  unfold readDirectory
  cases root.resolve path with
  | error error => simp [bind, Except.bind]
  | ok node => cases node <;> simp [bind, Except.bind]

end Node

end ScriptAudit
