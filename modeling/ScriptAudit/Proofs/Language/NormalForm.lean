import Mathlib.Data.List.TakeWhile
import ScriptAudit.Language
import ScriptAudit.Proofs.Text.Lines

/-!
The normal form of a language file. What is read from any text has each key once, and an entry
is one line that no comment, break or blank at an end takes anything from. Entries of this form
are read back from their own lines, in their order and without a report, and no other ones are.
-/
namespace ScriptAudit.Language

open Text (Unbroken Tight isBlank)

def assignment (entry : Text × Text) : Text := entry.1 ++ space :: entry.2

def written (entries : Entries) : Text := Text.join [Text.lineFeed] (entries.map assignment)

def CommentFree (text : Text) : Prop :=
  .char '#' ∉ text ∧ ¬ [.char '/', .char '/'] <:+: text

theorem CommentFree.within {part whole : Text} (free : CommentFree whole)
    (inside : part <:+: whole) : CommentFree part :=
  ⟨fun member => free.1 (inside.mem member), fun slashes => free.2 (slashes.trans inside)⟩

theorem beforeComment_isPrefix (text : Text) : beforeComment text <+: text := by
  fun_induction beforeComment text with
  | case1 | case2 | case3 => exact List.nil_prefix
  | case4 point rest _ _ ih => exact (List.cons_prefix_cons).mpr ⟨rfl, ih⟩

theorem beforeComment_commentFree (text : Text) : CommentFree (beforeComment text) := by
  fun_induction beforeComment text with
  | case1 | case2 | case3 => exact ⟨List.not_mem_nil, by decide⟩
  | case4 point rest noSign noSlashes ih =>
      refine ⟨?_, ?_⟩
      · intro member
        rcases List.mem_cons.mp member with same | later
        · exact noSign same.symm
        · exact ih.1 later
      · intro slashes
        rcases List.infix_cons_iff.mp slashes with front | later
        · -- The second slash would stand in the text itself, where the comment begins.
          obtain ⟨same, next⟩ := List.cons_prefix_cons.mp front
          obtain ⟨more, whole⟩ := next.trans (beforeComment_isPrefix rest)
          exact noSlashes more same.symm whole.symm
        · exact ih.2 later

theorem beforeComment_of_commentFree {text : Text} (free : CommentFree text) :
    beforeComment text = text := by
  fun_induction beforeComment text with
  | case1 => rfl
  | case2 rest => exact absurd List.mem_cons_self free.1
  | case3 rest => exact absurd (List.prefix_append [_, _] rest).isInfix free.2
  | case4 point rest _ _ ih =>
      rw [ih (free.within (List.suffix_cons point rest).isInfix)]

theorem splitAtSpace_eq_some_iff (text key value : Text) :
    splitAtSpace text = some (key, value) ↔ text = key ++ space :: value ∧ space ∉ key := by
  have whole := List.takeWhile_append_dropWhile (p := (· != space)) (l := text)
  constructor
  · intro found
    unfold splitAtSpace at found
    cases cut : text.dropWhile (· != space) with
    | nil =>
        rw [cut] at found
        cases found
    | cons first rest =>
        rw [cut] at found
        cases found
        have stop : first = space := by
          have outside := List.head?_dropWhile_not (· != space) text
          simpa [cut] using outside
        subst stop
        refine ⟨?_, fun member => ?_⟩
        · rw [← cut]
          exact whole.symm
        · exact absurd (List.mem_takeWhile_imp member) (by decide)
  · rintro ⟨rfl, spaceless⟩
    have before : ∀ point ∈ key, (point != space) = true :=
      fun point member => bne_iff_ne.mpr fun same => spaceless (same ▸ member)
    unfold splitAtSpace
    rw [List.dropWhile_append_of_pos before, List.takeWhile_append_of_pos before]
    simp

theorem ofRaw_eq_entry_iff (raw key value : Text) :
    Line.ofRaw raw = .entry key value ↔
      Text.trim (beforeComment raw) = assignment (key, value) ∧ space ∉ key := by
  rw [assignment, ← splitAtSpace_eq_some_iff]
  unfold Line.ofRaw
  cases Text.trim (beforeComment raw) with
  | nil => simp [splitAtSpace]
  | cons first rest =>
      cases found : splitAtSpace (first :: rest) with
      | none => simp [found]
      | some pair => simp [found, Prod.ext_iff]

/-- An entry whose line is read as the entry: the first space of the line ends the key, and the
line is one line, which nothing is cut from. -/
structure Settled (entry : Text × Text) : Prop where
  spaceless : space ∉ entry.1
  tight : Tight isBlank (assignment entry)
  commentFree : CommentFree (assignment entry)
  unbroken : Unbroken (assignment entry)

namespace Settled

variable {entry : Text × Text}

theorem ofRaw_assignment (settled : Settled entry) :
    Line.ofRaw (assignment entry) = .entry entry.1 entry.2 := by
  rw [ofRaw_eq_entry_iff]
  refine ⟨?_, settled.spaceless⟩
  calc Text.trim (beforeComment (assignment entry))
    _ = Text.trim (assignment entry) := by
        rw [beforeComment_of_commentFree settled.commentFree]
    _ = assignment entry := Text.trimBy_of_tight settled.tight

/-- What a line is read as is a part of the line. -/
theorem of_ofRaw {raw : Text} (unbroken : Unbroken raw)
    (read : Line.ofRaw raw = .entry entry.1 entry.2) : Settled entry := by
  obtain ⟨trimmed, spaceless⟩ := (ofRaw_eq_entry_iff raw entry.1 entry.2).mp read
  have inside : assignment entry <:+: beforeComment raw :=
    trimmed ▸ Text.trimBy_isInfix isBlank (beforeComment raw)
  refine ⟨spaceless, ?_, ?_, ?_⟩
  · exact trimmed ▸ Text.trimBy_tight isBlank (beforeComment raw)
  · exact (beforeComment_commentFree raw).within inside
  · exact unbroken.within (inside.trans (beforeComment_isPrefix raw).isInfix)

end Settled

structure Normal (entries : Entries) : Prop where
  distinct : (entries.map Prod.fst).Nodup
  settled : ∀ entry ∈ entries, Settled entry

theorem entries_normal (text : Text) : Normal (entries text) := by
  constructor
  · have none : (([] : Entries).map Prod.fst).Nodup := List.nodup_nil
    exact Association.nodup_update none _
  · intro entry member
    rcases Association.mem_update member with never | read
    · cases never
    · obtain ⟨line, listed, holds⟩ := List.mem_filterMap.mp read
      obtain ⟨raw, among, rfl⟩ := List.mem_map.mp listed
      refine Settled.of_ofRaw (Text.unbroken_of_mem_lines among) ?_
      generalize Line.ofRaw raw = line at holds
      cases line with
      | entry key value => cases holds; rfl
      | blank | keyOnly => cases holds

theorem linesOf_written {entries : Entries} (settled : ∀ entry ∈ entries, Settled entry) :
    linesOf (written entries) = entries.map fun entry => .entry entry.1 entry.2 := by
  have split : Text.lines (written entries) = entries.map assignment := by
    refine Text.lines_join ?_ ?_
    · exact List.forall_mem_map.mpr fun entry member => (settled entry member).unbroken
    · exact List.forall_mem_map.mpr fun entry _ =>
        List.append_ne_nil_of_right_ne_nil _ (List.cons_ne_nil _ _)
  rw [linesOf, split, List.map_map]
  exact List.map_congr_left fun entry member => (settled entry member).ofRaw_assignment

theorem parse_written {entries : Entries} (normal : Normal entries) :
    parse (written entries) = (entries, []) := by
  have read := linesOf_written normal.settled
  refine Prod.ext ?_ ?_
  · calc Association.update [] ((linesOf (written entries)).filterMap Line.entry?)
      _ = Association.update [] entries := by
          rw [read, List.filterMap_map]
          exact congrArg _ List.filterMap_some
      _ = entries := Association.update_of_new normal.distinct
  · change (linesOf (written entries)).filterMap Line.warning? = []
    rw [read, List.filterMap_map]
    exact List.filterMap_eq_nil_iff.mpr fun _ _ => rfl

/-- The lists of entries that some text is read as are those in normal form. -/
theorem normal_iff_exists_parse (entries : Entries) :
    Normal entries ↔ ∃ text, (parse text).1 = entries := by
  constructor
  · intro normal
    exact ⟨written entries, congrArg Prod.fst (parse_written normal)⟩
  · rintro ⟨text, rfl⟩
    exact entries_normal text

/-- What is read from a text stays the same when it is read again from its own lines, and there
is nothing to report then. -/
theorem parsed_in_normal_form (text : Text) :
    Normal (parse text).1 ∧ parse (written (parse text).1) = ((parse text).1, []) :=
  ⟨entries_normal text, parse_written (entries_normal text)⟩

end ScriptAudit.Language
