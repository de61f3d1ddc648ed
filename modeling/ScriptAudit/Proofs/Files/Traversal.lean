import Mathlib.Data.List.Lex
import ScriptAudit.Proofs.Files.Location

/-!
Walks through a directory. A traversal goes through the entries of a directory by ascending
names and enters each subdirectory where its name stands. So it meets every file below the
directory once, by ascending paths, if paths are compared name by name; there is no other such
order, and a file more in the tree is one file more on the way. The walk meets the files of a
readable directory in this order, and each is then found under its path.
-/
namespace ScriptAudit

theorem CodePoint.code_injective {one other : CodePoint} (same : one.code = other.code) :
    one = other := by
  cases one with
  | char c =>
      cases other with
      | char d => exact congrArg char (Char.toNat_inj.mp same)
      | surrogate place =>
          -- The surrogates have codes that no character has.
          have valid : c.toNat < 0xD800 ∨ 0xDFFF < c.toNat ∧ c.toNat < 0x110000 := c.valid
          have bound := place.isLt
          simp only [code, firstSurrogate] at same
          omega
  | surrogate place =>
      cases other with
      | char d =>
          have valid : d.toNat < 0xD800 ∨ 0xDFFF < d.toNat ∧ d.toNat < 0x110000 := d.valid
          have bound := place.isLt
          simp only [code, firstSurrogate] at same
          omega
      | surrogate other =>
          simp only [code, Nat.add_left_cancel_iff] at same
          exact congrArg surrogate (Fin.ext same)

namespace Text

def Before : Text → Text → Prop := List.Lex fun one other => one.code < other.code

instance : Std.Asymm Before := inferInstanceAs (Std.Asymm (List.Lex _))

theorem le_total (one other : Text) : (one.le other || other.le one) = true := by
  induction one generalizing other with
  | nil => rfl
  | cons a one ih =>
      cases other with
      | nil => rfl
      | cons b other =>
          have tails := ih other
          simp only [le, Bool.or_eq_true, Bool.and_eq_true, decide_eq_true_eq] at tails ⊢
          rcases Nat.lt_trichotomy a.code b.code with less | same | more
          · exact Or.inl (Or.inl less)
          · exact tails.imp (fun tail => Or.inr ⟨same, tail⟩) fun tail => Or.inr ⟨same.symm, tail⟩
          · exact Or.inr (Or.inl more)

theorem le_trans (one middle other : Text) (first : one.le middle = true)
    (second : middle.le other = true) : one.le other = true := by
  induction one generalizing middle other with
  | nil => rfl
  | cons a one ih =>
      cases middle with
      | nil => cases first
      | cons b middle =>
          cases other with
          | nil => cases second
          | cons c other =>
              simp only [le, Bool.or_eq_true, Bool.and_eq_true, decide_eq_true_eq] at *
              rcases first with less | ⟨same, first⟩
              · rcases second with further | ⟨next, _⟩
                · exact Or.inl (Nat.lt_trans less further)
                · exact Or.inl (next ▸ less)
              · rcases second with further | ⟨next, second⟩
                · exact Or.inl (same ▸ further)
                · exact Or.inr ⟨same.trans next, ih middle other first second⟩

theorem before_of_le {one other : Text} (least : one.le other = true) (apart : one ≠ other) :
    one.Before other := by
  induction one generalizing other with
  | nil =>
      cases other with
      | nil => exact (apart rfl).elim
      | cons b other => exact List.Lex.nil
  | cons a one ih =>
      cases other with
      | nil => cases least
      | cons b other =>
          simp only [le, Bool.or_eq_true, Bool.and_eq_true, decide_eq_true_eq] at least
          rcases least with less | ⟨same, tail⟩
          · exact List.Lex.rel less
          · have head := CodePoint.code_injective same
            subst head
            exact List.Lex.cons (ih tail fun equal => apart (congrArg (a :: ·) equal))

end Text

namespace Path

def Before (one other : Path) : Prop := List.Lex Text.Before one.names other.names

theorem Before.asymm {one other : Path} (first : one.Before other) : ¬ other.Before one :=
  (inferInstance : Std.Asymm (List.Lex Text.Before)).asymm _ _ first

theorem before_of_names {one other : Path} {front back tail : List Text} {first second : Text}
    (order : first.Before second) (left : one.names = front ++ first :: back)
    (right : other.names = front ++ second :: tail) : one.Before other := by
  unfold Before
  rw [left, right]
  exact List.Lex.append_left Text.Before (List.Lex.rel order) front

end Path

namespace Visit

def Ascending (entries : List (Text × Node)) : Prop :=
  entries.Pairwise fun one other => one.1.Before other.1

theorem byName_ascending {entries : List (Text × Node)}
    (distinct : (entries.map Prod.fst).Nodup) : Ascending (byName entries) := by
  have sorted := List.pairwise_mergeSort
    (fun one middle other : Text × Node => Text.le_trans one.1 middle.1 other.1)
    (fun one other => Text.le_total one.1 other.1) entries
  have apart : (byName entries).Pairwise fun one other => one.1 ≠ other.1 := by
    have names : ((byName entries).map Prod.fst).Nodup :=
      ((List.mergeSort_perm entries _).map Prod.fst).nodup_iff.mpr distinct
    exact List.pairwise_map.mp names
  exact (sorted.and apart).imp fun both => Text.before_of_le both.1 both.2

/-- The files that are met on the way through some entries of a directory: a file itself, and
for a subdirectory those below it, with its entries by ascending names. -/
inductive Traversal : Path → List (Text × Node) → List (Path × List UInt8) → Prop where
  | done (path : Path) : Traversal path [] []
  | file {path : Path} {name : Text} {bytes : List UInt8} {rest : List (Text × Node)}
      {files : List (Path × List UInt8)} : Traversal path rest files →
      Traversal path ((name, .file bytes) :: rest) ((path.child name, bytes) :: files)
  | directory {path : Path} {name : Text} {entries order rest : List (Text × Node)}
      {inner files : List (Path × List UInt8)} : order.Perm entries → Ascending order →
      Traversal (path.child name) order inner → Traversal path rest files →
      Traversal path ((name, .directory entries) :: rest) (inner ++ files)

def DepthFirst (path : Path) (entries : List (Text × Node))
    (files : List (Path × List UInt8)) : Prop :=
  ∃ order, order.Perm entries ∧ Ascending order ∧ Traversal path order files

end Visit

theorem Node.filesOf_eq (path : Path) (entries : List (Text × Node)) :
    filesOf path entries = entries.flatMap fun entry => entry.2.files (path.child entry.1) := by
  induction entries with
  | nil => rfl
  | cons entry rest ih =>
      rw [filesOf, ih]
      rfl

theorem Node.filesOf_perm (path : Path) {one other : List (Text × Node)}
    (same : one.Perm other) : (filesOf path one).Perm (filesOf path other) := by
  rw [filesOf_eq, filesOf_eq]
  exact same.flatMap_right _

namespace Visit

variable {path : Path} {order : List (Text × Node)} {files : List (Path × List UInt8)}

/-- Every file below the directory is met once. -/
theorem Traversal.files_perm (traversal : Traversal path order files) :
    files.Perm (Node.filesOf path order) := by
  induction traversal with
  | done path => exact .nil
  | file _ ih =>
      rw [Node.filesOf, Node.files]
      exact ih.cons _
  | directory same _ _ _ inside others =>
      rw [Node.filesOf, Node.files]
      exact (inside.trans (Node.filesOf_perm _ same)).append others

theorem Traversal.placed (traversal : Traversal path order files) :
    ∀ file ∈ files, ∃ entry ∈ order, ∃ tail, file.1.names = path.names ++ entry.1 :: tail := by
  induction traversal with
  | done path =>
      intro file member
      cases member
  | file _ ih =>
      intro file member
      rcases List.mem_cons.mp member with rfl | later
      · exact ⟨_, List.mem_cons_self, [], rfl⟩
      · obtain ⟨entry, held, place⟩ := ih file later
        exact ⟨entry, List.mem_cons_of_mem _ held, place⟩
  | directory _ _ _ _ inside others =>
      intro file member
      rcases List.mem_append.mp member with within | later
      · obtain ⟨entry, _, tail, place⟩ := inside file within
        refine ⟨_, List.mem_cons_self, entry.1 :: tail, ?_⟩
        rw [place, Path.child, List.append_assoc]
        rfl
      · obtain ⟨entry, held, place⟩ := others file later
        exact ⟨entry, List.mem_cons_of_mem _ held, place⟩

theorem Traversal.ascending (traversal : Traversal path order files)
    (sorted : Ascending order) : files.Pairwise fun one other => one.1.Before other.1 := by
  induction traversal with
  | done path => exact .nil
  | file others ih =>
      obtain ⟨first, tail⟩ := List.pairwise_cons.mp sorted
      refine List.pairwise_cons.mpr ⟨?_, ih tail⟩
      intro file member
      obtain ⟨entry, held, _, place⟩ := others.placed file member
      exact Path.before_of_names (first entry held) rfl place
  | directory _ inOrder within others inside ih =>
      obtain ⟨first, tail⟩ := List.pairwise_cons.mp sorted
      refine List.pairwise_append.mpr ⟨inside inOrder, ih tail, ?_⟩
      intro one here other later
      obtain ⟨_, _, _, left⟩ := within.placed one here
      obtain ⟨entry, held, _, right⟩ := others.placed other later
      rw [Path.child, List.append_assoc] at left
      exact Path.before_of_names (first entry held) left right

/-- There is one depth-first order of a directory. -/
theorem ascending_unique {one other : List (Path × List UInt8)}
    (first : one.Pairwise fun a b => a.1.Before b.1)
    (second : other.Pairwise fun a b => a.1.Before b.1) (same : one.Perm other) : one = other :=
  same.eq_of_pairwise (fun _ _ _ _ before after => (before.asymm after).elim) first second

end Visit

inductive Node.AddedFile : Path → List (Text × Node) → List (Text × Node) →
    Path × List UInt8 → Prop where
  | here {path : Path} {front back : List (Text × Node)} (name : Text) (bytes : List UInt8) :
      AddedFile path (front ++ back) (front ++ (name, .file bytes) :: back)
        (path.child name, bytes)
  | deeper {path : Path} {front back entries larger : List (Text × Node)} {name : Text}
      {added : Path × List UInt8} : AddedFile (path.child name) entries larger added →
      AddedFile path (front ++ (name, .directory entries) :: back)
        (front ++ (name, .directory larger) :: back) added

namespace Node

variable {path : Path} {entries larger : List (Text × Node)} {added : Path × List UInt8}

theorem AddedFile.files_perm (addition : AddedFile path entries larger added) :
    (filesOf path larger).Perm (added :: filesOf path entries) := by
  induction addition with
  | here name bytes =>
      simp only [filesOf_eq, List.flatMap_append, List.flatMap_cons, files]
      exact List.perm_middle
  | deeper _ ih =>
      simp only [filesOf_eq, List.flatMap_append, List.flatMap_cons, files] at ih ⊢
      exact ((ih.append_right _).append_left _).trans List.perm_middle

/-- The file more is met in between, and the others are met as before. -/
theorem AddedFile.depthFirst {files more : List (Path × List UInt8)}
    (addition : AddedFile path entries larger added)
    (first : Visit.DepthFirst path entries files) (second : Visit.DepthFirst path larger more) :
    ∃ front back, files = front ++ back ∧ more = front ++ added :: back := by
  obtain ⟨order, arranged, sorted, traversal⟩ := first
  obtain ⟨largerOrder, largerArranged, largerSorted, largerTraversal⟩ := second
  have all : more.Perm (added :: files) := by
    have large := largerTraversal.files_perm.trans (filesOf_perm path largerArranged)
    have small := traversal.files_perm.trans (filesOf_perm path arranged)
    exact (large.trans addition.files_perm).trans (small.symm.cons added)
  obtain ⟨front, back, rfl⟩ := List.append_of_mem (all.mem_iff.mpr List.mem_cons_self)
  refine ⟨front, back, ?_, rfl⟩
  have rest : (front ++ back).Perm files := (List.perm_middle.symm.trans all).cons_inv
  have ascending : (front ++ back).Pairwise fun a b => a.1.Before b.1 :=
    (largerTraversal.ascending largerSorted).sublist
      ((List.sublist_cons_self added back).append_left front)
  exact Visit.ascending_unique (traversal.ascending sorted) ascending rest.symm

/-- A directory that can be walked: its path can be asked for, its entries have different names,
each as it is spelled and none of them the one that leads back, and the directories in it can
be walked. Of a file nothing is asked. -/
inductive Readable : Path → Node → Prop where
  | file (path : Path) (bytes : List UInt8) : Readable path (.file bytes)
  | directory {path : Path} {names : List Text} {entries : List (Text × Node)} :
      path.settle = .ok names → (entries.map Prod.fst).Nodup →
      (∀ entry ∈ entries, entry.1 ≠ Path.above ∧ Path.settleName entry.1 = entry.1) →
      (∀ entry ∈ entries, Readable (path.child entry.1) entry.2) →
      Readable path (.directory entries)

theorem Readable.settles (readable : Readable path (.directory entries)) :
    ∃ names, path.settle = .ok names := by
  cases readable with
  | directory settled _ _ _ => exact ⟨_, settled⟩

def Reaches (path : Path) (entries : List (Text × Node)) (entry : Text × Node) : Prop :=
  Association.get? entry.1 entries = some entry.2 ∧
    (entry.1 ≠ Path.above ∧ Path.settleName entry.1 = entry.1) ∧
    Readable (path.child entry.1) entry.2

theorem Readable.reaches (readable : Readable path (.directory entries)) :
    ∀ entry ∈ entries, Reaches path entries entry := by
  intro entry member
  cases readable with
  | directory _ distinct plain inside =>
      exact ⟨Association.get?_of_mem distinct member, plain entry member, inside entry member⟩

end Node

namespace Visit

variable {path : Path} {order entries : List (Text × Node)} {files : List (Path × List UInt8)}

/-- The files that a traversal meets are those which their paths lead to. -/
theorem Traversal.readFile {root : Node} (traversal : Traversal path order files)
    (found : root.resolve path = .ok (.directory entries))
    (reached : ∀ entry ∈ order, Node.Reaches path entries entry) :
    ∀ file ∈ files, ∀ names, file.1.settle = .ok names → root.readFile file.1 = .ok file.2 := by
  induction traversal generalizing entries with
  | done path =>
      intro file member
      cases member
  | file _ ih =>
      intro file member names settled
      rcases List.mem_cons.mp member with rfl | later
      · obtain ⟨held, ⟨ordinary, plain⟩, _⟩ := reached _ List.mem_cons_self
        exact (Node.readFile_ok_iff _ _ _).mpr
          (Node.resolve_child found held ordinary plain settled)
      · exact ih found (fun entry held => reached entry (List.mem_cons_of_mem _ held)) file later
          names settled
  | directory same _ _ _ inside others =>
      intro file member names settled
      rcases List.mem_append.mp member with within | later
      · obtain ⟨held, ⟨ordinary, plain⟩, readable⟩ := reached _ List.mem_cons_self
        obtain ⟨inner, asked⟩ := readable.settles
        have entered := Node.resolve_child found held ordinary plain asked
        refine inside entered ?_ file within names settled
        intro entry listed
        exact readable.reaches entry (same.mem_iff.mp listed)
      · exact others found (fun entry held => reached entry (List.mem_cons_of_mem _ held)) file
          later names settled

def leaf (file : Path × List UInt8) : Visit :=
  match file.1.settle with
  | .ok _ => .file file.1 file.2
  | .error error => .refused file.1 error

def isLeaf : Visit → Bool
  | file _ _ => true
  | refused _ _ => true
  | enter _ => false
  | leave _ => false

theorem ofNode_file (path : Path) (bytes : List UInt8) :
    ofNode path (.file bytes) = [leaf (path, bytes)] := by
  unfold ofNode leaf
  cases path.settle <;> rfl

theorem blocks_eq (path : Path) (entries : List (Text × Node)) :
    blocks path entries =
      entries.map fun entry => (entry.1, ofNode (path.child entry.1) entry.2) := by
  induction entries with
  | nil => rfl
  | cons entry rest ih =>
      rw [blocks, ih]
      rfl

theorem byName_map {α β : Type} (f : Text × α → β) (entries : List (Text × α)) :
    byName (entries.map fun entry => (entry.1, f entry)) =
      (byName entries).map fun entry => (entry.1, f entry) := by
  refine (List.map_mergeSort ?_).symm
  intro one _ other _
  rfl

theorem byName_blocks (path : Path) (entries : List (Text × Node)) :
    (byName (blocks path entries)).flatMap (·.2) =
      (byName entries).flatMap fun entry => ofNode (path.child entry.1) entry.2 := by
  rw [blocks_eq, byName_map, List.flatMap_map]

theorem ofNode_directory {path : Path} {names : List Text} (entries : List (Text × Node))
    (asked : path.settle = .ok names) :
    ofNode path (.directory entries) =
      .enter path :: (((byName entries).flatMap fun entry =>
        ofNode (path.child entry.1) entry.2) ++ [.leave path]) := by
  rw [← byName_blocks]
  unfold ofNode
  rw [asked]

theorem leaf_isLeaf (file : Path × List UInt8) : (leaf file).isLeaf = true := by
  unfold leaf
  cases file.1.settle <;> rfl

theorem traversal_of_entries (order : List (Text × Node))
    (inside : ∀ name entries, (name, Node.directory entries) ∈ order →
      ∃ files, DepthFirst (path.child name) entries files ∧
        (ofNode (path.child name) (.directory entries)).filter isLeaf = files.map leaf) :
    ∃ files, Traversal path order files ∧
      (order.flatMap fun entry => ofNode (path.child entry.1) entry.2).filter isLeaf =
        files.map leaf := by
  induction order with
  | nil => exact ⟨[], Traversal.done path, rfl⟩
  | cons entry rest ih =>
      obtain ⟨name, node⟩ := entry
      obtain ⟨files, traversal, visits⟩ := ih fun name entries member =>
        inside name entries (List.mem_cons_of_mem _ member)
      cases node with
      | file bytes =>
          refine ⟨(path.child name, bytes) :: files, Traversal.file traversal, ?_⟩
          rw [List.flatMap_cons, ofNode_file, List.filter_append, visits]
          simp [leaf_isLeaf]
      | directory entries =>
          obtain ⟨inner, ⟨sorted, same, ascending, within⟩, innerVisits⟩ :=
            inside name entries List.mem_cons_self
          refine ⟨inner ++ files, Traversal.directory same ascending within traversal, ?_⟩
          rw [List.flatMap_cons, List.filter_append, visits, innerVisits, List.map_append]

theorem depthFirst_ofNode {node : Node} (readable : Node.Readable path node) :
    ∀ entries, node = .directory entries → ∃ files, DepthFirst path entries files ∧
      ((byName entries).flatMap fun entry =>
        ofNode (path.child entry.1) entry.2).filter isLeaf = files.map leaf := by
  induction readable with
  | file path bytes =>
      intro entries never
      cases never
  | @directory path names entries settled distinct plain children ih =>
      rintro _ ⟨⟩
      have same : (byName entries).Perm entries := List.mergeSort_perm entries _
      obtain ⟨files, traversal, visits⟩ := @traversal_of_entries path (byName entries) <| by
        intro name inner member
        have listed := same.mem_iff.mp member
        obtain ⟨files, depthFirst, visits⟩ := ih _ listed inner rfl
        obtain ⟨_, asked⟩ := (children _ listed).settles
        refine ⟨files, depthFirst, ?_⟩
        -- Entering and leaving the directory are no files.
        rw [ofNode_directory inner asked, List.filter_cons_of_neg (by simp [isLeaf]),
          List.filter_append, visits]
        exact List.append_nil _
      exact ⟨files, ⟨byName entries, same, byName_ascending distinct, traversal⟩, visits⟩

/-- The walk through a directory meets the files below it depth first. -/
theorem walk_depthFirst (readable : Node.Readable path (.directory entries)) :
    ∃ files, DepthFirst path entries files ∧
      (walk path entries).filter isLeaf = files.map leaf := by
  obtain ⟨files, depthFirst, visits⟩ := depthFirst_ofNode readable entries rfl
  refine ⟨files, depthFirst, ?_⟩
  rw [walk, byName_blocks, List.filter_cons_of_neg (by simp [isLeaf])]
  exact visits

end Visit

end ScriptAudit
