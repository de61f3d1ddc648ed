import ScriptAudit.Proofs.Files.Location
import ScriptAudit.Proofs.Steps

/-!
Changes of a tree. A file that is written is read under its path, and so are all other files:
nothing that was there vanishes, directories stay directories, and files keep their bytes but
where something was written. Paths then lead where they led before.
-/
namespace ScriptAudit.Node

def Kept : Node → Node → Prop
  | file bytes, after => after = file bytes
  | directory _, after => after.isDirectory = true

theorem Kept.refl (node : Node) : node.Kept node := by
  cases node <;> rfl

theorem at?_insert_of_directory {root : Node} {parent : List Text}
    {entries : List (Text × Node)} (new : Node) (name : Text)
    (here : root.at? parent = some (directory entries)) :
    (insert new (parent ++ [name]) root).at? (parent ++ [name]) = some new := by
  induction parent generalizing root with
  | nil =>
      cases here
      simp [insert, at?, child?, Association.get?_put_self]
  | cons first parent ih =>
      cases root with
      | file bytes => cases here
      | directory held =>
          simp only [at?, child?] at here
          cases found : Association.get? first held with
          | none =>
              rw [found] at here
              cases here
          | some below =>
              rw [found] at here
              simp only [List.cons_append, insert, found, Option.getD_some, at?, child?,
                Association.get?_put_self]
              exact ih here

/-- What is not at or below the place of a new node is kept. -/
theorem at?_insert_kept {root node : Node} {place other : List Text} (new : Node)
    (held : root.at? other = some node) (apart : ¬ place <+: other) :
    ∃ after, (insert new place root).at? other = some after ∧ node.Kept after := by
  induction place generalizing root other with
  | nil => exact (apart List.nil_prefix).elim
  | cons name place ih =>
      cases root with
      | file bytes => exact ⟨node, held, Kept.refl node⟩
      | directory entries =>
          cases other with
          | nil =>
              cases held
              exact ⟨_, rfl, rfl⟩
          | cons first other =>
              simp only [insert, at?, child?] at held ⊢
              by_cases same : first = name
              · -- The way to the other place leads through the directory that changes.
                subst same
                rw [Association.get?_put_self]
                cases found : Association.get? first entries with
                | none =>
                    rw [found] at held
                    cases held
                | some below =>
                    rw [found] at held
                    exact ih held fun longer => apart (List.cons_prefix_cons.mpr ⟨rfl, longer⟩)
              · rw [Association.get?_put_of_ne _ _ same]
                exact ⟨node, held, Kept.refl node⟩

theorem at?_below {root : Node} {place : List Text}
    (noDirectory : ∀ inner, root.at? place ≠ some (directory inner)) (name : Text)
    (rest : List Text) : root.at? (place ++ name :: rest) = none := by
  rw [at?_append]
  cases old : root.at? place with
  | none => rfl
  | some node =>
      cases node with
      | file bytes => rfl
      | directory inner => exact (noDirectory inner old).elim

/-- All that was there is there, of the same kind, and files have their bytes but at the places
that were changed. -/
structure Keeps (changed : List Text → Prop) (root after : Node) : Prop where
  kinds : ∀ place node, root.at? place = some node →
    ∃ now, after.at? place = some now ∧ now.isDirectory = node.isDirectory
  files : ∀ place bytes, ¬ changed place → root.at? place = some (file bytes) →
    after.at? place = some (file bytes)

namespace Keeps

variable {changed : List Text → Prop} {root middle after : Node}

theorem refl (changed : List Text → Prop) (root : Node) : Keeps changed root root where
  kinds _ node held := ⟨node, held, rfl⟩
  files _ _ _ held := held

theorem trans (first : Keeps changed root middle) (second : Keeps changed middle after) :
    Keeps changed root after where
  kinds := by
    intro place node held
    obtain ⟨between, there, kind⟩ := first.kinds place node held
    obtain ⟨now, here, sameKind⟩ := second.kinds place between there
    exact ⟨now, here, sameKind.trans kind⟩
  files place bytes unchanged held :=
    second.files place bytes unchanged (first.files place bytes unchanged held)

theorem weaken {more : List Text → Prop} (keeps : Keeps changed root after)
    (wider : ∀ place, changed place → more place) : Keeps more root after where
  kinds := keeps.kinds
  files place bytes unchanged := keeps.files place bytes fun was => unchanged (wider place was)

theorem file (keeps : Keeps changed root after) {place : List Text} {bytes : List UInt8}
    (held : root.at? place = some (.file bytes)) : ∃ now, after.at? place = some (.file now) := by
  obtain ⟨now, here, kind⟩ := keeps.kinds place _ held
  cases now with
  | file now => exact ⟨now, here⟩
  | directory entries => cases kind

theorem directory (keeps : Keeps changed root after) {place : List Text}
    {entries : List (Text × Node)} (held : root.at? place = some (.directory entries)) :
    ∃ now, after.at? place = some (.directory now) := by
  obtain ⟨now, here, kind⟩ := keeps.kinds place _ held
  cases now with
  | file bytes => cases kind
  | directory now => exact ⟨now, here⟩

theorem step (keeps : Keeps changed root after) {place next : List Text} {name : Text}
    (went : root.step place name = .ok next) : after.step place name = .ok next := by
  obtain ⟨entries, here, went⟩ := step_ok_iff.mp went
  obtain ⟨larger, there⟩ := keeps.directory here
  refine step_ok_iff.mpr ⟨larger, there, ?_⟩
  by_cases back : leadsBack place name = true
  · rw [if_pos back] at went ⊢
    exact went
  · rw [if_neg back] at went ⊢
    -- A name that was in the directory is still in it.
    obtain ⟨⟨node, held⟩, rfl⟩ := went
    obtain ⟨now, still, _⟩ := keeps.kinds _ node held
    exact ⟨⟨now, still⟩, rfl⟩

theorem locate (keeps : Keeps changed root after) {names place : List Text}
    (led : root.locate names = .ok place) : after.locate names = .ok place := by
  unfold Node.locate at led ⊢
  generalize ([] : List Text) = start at led ⊢
  induction names generalizing start with
  | nil => exact led
  | cons name names ih =>
      rw [List.foldlM_cons] at led ⊢
      obtain ⟨next, went, further⟩ := Steps.except_ok_iff.mp led
      exact Steps.except_ok_iff.mpr ⟨next, keeps.step went, ih next further⟩

end Keeps

def Free (root : Node) (place : List Text) : Prop :=
  ∃ parent name entries, place = parent ++ [name] ∧ root.at? parent = some (directory entries) ∧
    ∀ inner, root.at? place ≠ some (directory inner)

namespace Free

variable {root : Node} {place : List Text}

theorem outside (free : Free root place) {other : List Text} {node : Node}
    (held : root.at? other = some node) (apart : other ≠ place) : ¬ place <+: other := by
  obtain ⟨_, _, _, _, _, noDirectory⟩ := free
  rintro ⟨rest, rfl⟩
  cases rest with
  | nil => exact apart (List.append_nil place)
  | cons name rest =>
      rw [at?_below noDirectory] at held
      cases held

theorem at?_insert (free : Free root place) (new : Node) :
    (insert new place root).at? place = some new := by
  obtain ⟨parent, name, _, rfl, here, _⟩ := free
  exact at?_insert_of_directory new name here

/-- A new node changes the file at its own place only, if it does not take the place of a node
of another kind. -/
theorem insert_keeps (free : Free root place) (new : Node)
    (alike : ∀ old, root.at? place = some old → new.isDirectory = old.isDirectory) :
    Keeps (· = place) root (insert new place root) where
  kinds := by
    intro other node held
    by_cases same : other = place
    · subst same
      exact ⟨new, free.at?_insert new, alike node held⟩
    · obtain ⟨now, there, kept⟩ := at?_insert_kept new held (free.outside held same)
      refine ⟨now, there, ?_⟩
      cases node with
      | file bytes => rw [kept]
      | directory inner => exact kept
  files := by
    intro other bytes apart held
    obtain ⟨now, there, kept⟩ := at?_insert_kept new held (free.outside held apart)
    rw [there, kept]

theorem writeAt_keeps (free : Free root place) (bytes : List UInt8) :
    Keeps (· = place) root (root.writeAt place bytes) := by
  apply free.insert_keeps
  intro old held
  obtain ⟨_, _, _, _, _, noDirectory⟩ := free
  cases old with
  | file before => rfl
  | directory inner => exact (noDirectory inner held).elim

end Free

theorem insert_directory_keeps {root : Node} {parent : List Text} {name : Text}
    {entries : List (Text × Node)} (here : root.at? parent = some (directory entries))
    (absent : Association.get? name entries = none) :
    Keeps (fun _ => False) root (insert (directory []) (parent ++ [name]) root) := by
  have nothing : root.at? (parent ++ [name]) = none := by
    rw [at?_concat, here]
    exact absent
  have free : Free root (parent ++ [name]) :=
    ⟨parent, name, entries, rfl, here, fun inner held => by rw [nothing] at held; cases held⟩
  have keeps := free.insert_keeps (directory []) fun old held => by rw [nothing] at held; cases held
  refine ⟨keeps.kinds, ?_⟩
  intro place bytes _ held
  apply keeps.files place bytes _ held
  rintro rfl
  rw [nothing] at held
  cases held

theorem newPlace_ok {parent place : List Text} {name : Text}
    (new : newPlace parent name = .ok place) : place = parent ++ [name] := by
  unfold newPlace at new
  split at new
  · cases new
  · cases new
    rfl

theorem makeDirectory_keeps {root after : Node} {path : Path}
    (made : root.makeDirectory path = .ok after) : Keeps (fun _ => False) root after := by
  unfold makeDirectory at made
  obtain ⟨names, _, made⟩ := Steps.except_ok_iff.mp made
  cases last : names.getLast? with
  | none =>
      rw [last] at made
      cases made
      exact Keeps.refl _ root
  | some name =>
      rw [last] at made
      obtain ⟨parent, _, made⟩ := Steps.except_ok_iff.mp made
      cases here : root.at? parent with
      | none =>
          rw [here] at made
          cases made
      | some node =>
          rw [here] at made
          cases node with
          | file bytes => cases made
          | directory entries =>
              simp only at made
              by_cases back : leadsBack parent name = true
              · rw [if_pos back] at made
                cases made
                exact Keeps.refl _ root
              · -- A directory of this name is left as it is, and a file is in the way.
                rw [if_neg back] at made
                cases held : (directory entries).child? name with
                | none =>
                    rw [held] at made
                    obtain ⟨place, new, made⟩ := Steps.except_ok_iff.mp made
                    cases made
                    rw [newPlace_ok new]
                    exact insert_directory_keeps here held
                | some node =>
                    rw [held] at made
                    cases node with
                    | file bytes => cases made
                    | directory inner =>
                        cases made
                        exact Keeps.refl _ root

theorem makeAlong_keeps {root after : Node} {room : Nat} {names : List Text}
    (made : root.makeAlong room names = .ok after) : Keeps (fun _ => False) root after := by
  induction names generalizing room after with
  | nil =>
      rw [makeAlong] at made
      cases made
      exact Keeps.refl _ root
  | cons name above ih =>
      unfold makeAlong at made
      split at made
      · cases made
      · -- The directories above were missing and are made first.
        obtain ⟨middle, madeAbove, made⟩ := Steps.except_ok_iff.mp made
        exact (ih madeAbove).trans (makeDirectory_keeps made)
      · exact makeDirectory_keeps made

theorem makeDirectories_keeps {root after : Node} {path : Path}
    (made : root.makeDirectories path = .ok after) : Keeps (fun _ => False) root after :=
  makeAlong_keeps made

def Leads (root : Node) (path : Path) (place : List Text) : Prop :=
  ∃ names, path.settle = .ok names ∧ root.locate names = .ok place

namespace Leads

variable {root after : Node} {path : Path} {place : List Text}

theorem keep {changed : List Text → Prop} (leads : Leads root path place)
    (keeps : Keeps changed root after) : Leads after path place := by
  obtain ⟨names, settled, located⟩ := leads
  exact ⟨names, settled, keeps.locate located⟩

theorem unique {other : List Text} (one : Leads root path place)
    (two : Leads root path other) : place = other := by
  obtain ⟨names, settled, located⟩ := one
  obtain ⟨_, again, also⟩ := two
  cases settled.symm.trans again
  cases located.symm.trans also
  rfl

theorem readFile_iff (leads : Leads root path place) (bytes : List UInt8) :
    root.readFile path = .ok bytes ↔ root.at? place = some (file bytes) := by
  rw [readFile_ok_iff, resolve_ok_iff]
  constructor
  · rintro ⟨names, found, settled, located, held⟩
    rwa [leads.unique ⟨names, settled, located⟩]
  · intro held
    obtain ⟨names, settled, located⟩ := leads
    exact ⟨names, place, settled, located, held⟩

end Leads

/-- The place that a file gets is in the directory to which the path without its last name
leads, under that name, and the name does not lead back from there. -/
theorem placeForFile_ok {root : Node} {path : Path} {place : List Text}
    (granted : root.placeForFile path = .ok place) :
    ∃ names parent name entries, path.settle = .ok (names ++ [name]) ∧
      root.locate names = .ok parent ∧ root.at? parent = some (directory entries) ∧
      leadsBack parent name = false ∧ place = parent ++ [name] ∧
      ∀ inner, Association.get? name entries ≠ some (directory inner) := by
  unfold placeForFile at granted
  obtain ⟨names, settled, granted⟩ := Steps.except_ok_iff.mp granted
  cases last : names.getLast? with
  | none =>
      rw [last] at granted
      cases granted
  | some name =>
      rw [last] at granted
      obtain ⟨front, rfl⟩ := List.getLast?_eq_some_iff.mp last
      simp only [List.dropLast_concat] at granted
      obtain ⟨parent, located, granted⟩ := Steps.except_ok_iff.mp granted
      cases here : root.at? parent with
      | none =>
          rw [here] at granted
          cases granted
      | some node =>
          rw [here] at granted
          cases node with
          | file bytes => cases granted
          | directory entries =>
              simp only at granted
              by_cases back : leadsBack parent name = true
              · rw [if_pos back] at granted
                cases granted
              · rw [if_neg back] at granted
                refine ⟨front, parent, name, entries, settled, located, here,
                  eq_false_of_ne_true back, ?_⟩
                cases held : (directory entries).child? name with
                | none =>
                    rw [held] at granted
                    refine ⟨newPlace_ok granted, fun inner other => ?_⟩
                    cases held.symm.trans other
                | some node =>
                    rw [held] at granted
                    cases node with
                    | directory inner => cases granted
                    | file bytes =>
                        cases granted
                        refine ⟨rfl, fun inner other => ?_⟩
                        cases held.symm.trans other

/-- A file that is written is what its path then leads to. -/
theorem writeAt_granted {root : Node} {path : Path} {place : List Text}
    (granted : root.placeForFile path = .ok place) (bytes : List UInt8) :
    Keeps (· = place) root (root.writeAt place bytes) ∧
    Leads (root.writeAt place bytes) path place ∧
    (root.writeAt place bytes).at? place = some (file bytes) := by
  obtain ⟨names, parent, name, entries, settled, located, here, onward, rfl, noDirectory⟩ :=
    placeForFile_ok granted
  have free : Free root (parent ++ [name]) := by
    refine ⟨parent, name, entries, rfl, here, fun inner held => ?_⟩
    rw [at?_concat, here] at held
    exact noDirectory inner held
  have keeps := free.writeAt_keeps bytes
  have written : (root.writeAt (parent ++ [name]) bytes).at? (parent ++ [name]) =
      some (file bytes) := free.at?_insert (file bytes)
  refine ⟨keeps, ⟨names ++ [name], settled, ?_⟩, written⟩
  rw [locate_concat, keeps.locate located]
  obtain ⟨_, there⟩ := keeps.directory here
  exact step_of_child there onward written

def HasFile (root : Node) (place : List Text) : Prop :=
  place ≠ [] ∧ ∃ bytes, root.at? place = some (file bytes)

namespace HasFile

variable {root after : Node} {place : List Text}

theorem keep {changed : List Text → Prop} (has : HasFile root place)
    (keeps : Keeps changed root after) : HasFile after place := by
  obtain ⟨named, bytes, held⟩ := has
  exact ⟨named, keeps.file held⟩

theorem free (has : HasFile root place) : Free root place := by
  obtain ⟨named, bytes, held⟩ := has
  obtain ⟨parent, name, split⟩ := (List.eq_nil_or_concat place).resolve_left named
  rw [List.concat_eq_append] at split
  subst split
  have inside := held
  rw [at?_concat] at inside
  obtain ⟨above, here, inside⟩ := Option.bind_eq_some_iff.mp inside
  cases above with
  | file _ => cases inside
  | directory entries =>
      refine ⟨parent, name, entries, rfl, here, fun inner other => ?_⟩
      cases held.symm.trans other

end HasFile

theorem hasFile_writeAt {root : Node} {path : Path} {place : List Text}
    (granted : root.placeForFile path = .ok place) (bytes : List UInt8) :
    HasFile (root.writeAt place bytes) place := by
  obtain ⟨_, _, written⟩ := writeAt_granted granted bytes
  obtain ⟨_, parent, name, _, _, _, _, _, rfl, _⟩ := placeForFile_ok granted
  exact ⟨List.concat_ne_nil name parent, bytes, written⟩

end ScriptAudit.Node
