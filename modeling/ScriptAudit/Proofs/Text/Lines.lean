import Mathlib.Data.List.DropRight
import ScriptAudit.Text.Blank
import ScriptAudit.Text.Lines

/-!
Lines and trimming. No line of a text has a break in it, and lines without one that are joined by
line feeds are the lines of what they are joined to. Two texts with a line feed between them have
the lines of both, and reading in text mode changes no line. Trimming gives a part of a text that
begins and ends outside of the class that is trimmed, and leaves such a text alone, whatever of
the class is around it.
-/
namespace ScriptAudit.Text

def Unbroken (text : Text) : Prop := ∀ point ∈ text, isBreak point = false

theorem Unbroken.within {part whole : Text} (unbroken : Unbroken whole)
    (inside : part <:+: whole) : Unbroken part :=
  fun point member => unbroken point (inside.mem member)

theorem unbroken_of_mem_lines {text line : Text} (member : line ∈ lines text) :
    Unbroken line := by
  -- The cases are those of the loop: a break closes an empty line, and another character
  -- goes to the front of the first line of what follows it.
  fun_induction lines text generalizing line with
  | case1 => cases member
  | case2 rest ih | case3 point rest _ _ ih =>
      rcases List.mem_cons.mp member with rfl | later
      · exact List.forall_mem_nil _
      · exact ih later
  | case4 point rest _ plain _ _ =>
      rw [List.mem_singleton.mp member]
      exact List.forall_mem_singleton.mpr (Bool.eq_false_iff.mpr plain)
  | case5 point rest _ plain first more split ih =>
      rcases List.mem_cons.mp member with rfl | later
      · exact List.forall_mem_cons.mpr
          ⟨Bool.eq_false_iff.mpr plain, ih (split ▸ List.mem_cons_self)⟩
      · exact ih (split ▸ List.mem_cons_of_mem first later)

theorem lines_lineFeed_cons (rest : Text) : lines (lineFeed :: rest) = [] :: lines rest := by
  rw [lines]
  · exact if_pos (by decide)
  · intro _ never
    exact absurd never (by decide)

theorem lines_cons_of_unbroken {point : CodePoint} (plain : isBreak point = false)
    (rest : Text) :
    lines (point :: rest) =
      (point :: (lines rest).headD []) :: (lines rest).tail := by
  rw [lines, if_neg (Bool.eq_false_iff.mp plain)]
  · cases lines rest <;> rfl
  · rintro _ rfl
    exact absurd plain (by decide)

theorem lines_append_lineFeed {part : Text} (unbroken : Unbroken part) (rest : Text) :
    lines (part ++ lineFeed :: rest) = part :: lines rest := by
  induction part with
  | nil => exact lines_lineFeed_cons rest
  | cons point part ih =>
      obtain ⟨plain, after⟩ := List.forall_mem_cons.mp unbroken
      rw [List.cons_append, lines_cons_of_unbroken plain, ih after]
      rfl

theorem lines_of_unbroken {part : Text} (unbroken : Unbroken part) (filled : part ≠ []) :
    lines part = [part] := by
  induction part with
  | nil => exact absurd rfl filled
  | cons point part ih =>
      obtain ⟨plain, after⟩ := List.forall_mem_cons.mp unbroken
      rw [lines_cons_of_unbroken plain]
      cases part with
      | nil => rfl
      | cons next part =>
          rw [ih after (List.cons_ne_nil _ _)]
          rfl

/-- Lines that are written are read back. An empty one at the end would be lost, as the end of
a text ends no line that is empty. -/
theorem lines_join {parts : List Text} (unbroken : ∀ part ∈ parts, Unbroken part)
    (filled : ∀ part ∈ parts, part ≠ []) : lines (join [lineFeed] parts) = parts := by
  induction parts with
  | nil => rfl
  | cons part rest ih =>
      obtain ⟨here, after⟩ := List.forall_mem_cons.mp unbroken
      obtain ⟨some, others⟩ := List.forall_mem_cons.mp filled
      cases rest with
      | nil =>
          rw [join, List.intercalate_singleton]
          exact lines_of_unbroken here some
      | cons next rest =>
          calc lines (join [lineFeed] (part :: next :: rest))
            _ = lines (part ++ lineFeed :: join [lineFeed] (next :: rest)) := rfl
            _ = part :: lines (join [lineFeed] (next :: rest)) := lines_append_lineFeed here _
            _ = part :: next :: rest := by rw [ih after others]

theorem eq_nil_of_lines {text : Text} (none : lines text = []) : text = [] := by
  unfold lines at none
  split at none
  · rfl
  · cases none
  · split at none
    · cases none
    · split at none <;> cases none

theorem lines_return_lineFeed (rest : Text) :
    lines (carriageReturn :: lineFeed :: rest) = [] :: lines rest := by
  rw [carriageReturn, lineFeed, lines]

theorem lines_cons_of_break {point : CodePoint} {rest : Text} (ends : isBreak point = true)
    (apart : ∀ more, point = carriageReturn → rest ≠ lineFeed :: more) :
    lines (point :: rest) = [] :: lines rest := by
  rw [lines, if_pos ends]
  exact apart

/-- A line feed between two texts ends the last line of the first one. Where that has its end
already there is an empty line more, unless the end is a carriage return, which the line feed
belongs to then. -/
theorem lines_append_lineFeed_cons (front back : Text) :
    ∃ gap, (∀ line ∈ gap, line = []) ∧
      lines (front ++ lineFeed :: back) = lines front ++ gap ++ lines back := by
  have alone : ∀ line ∈ [([] : Text)], line = [] := fun line => List.mem_singleton.mp
  fun_induction lines front with
  | case1 => exact ⟨[[]], alone, lines_lineFeed_cons back⟩
  | case2 rest ih =>
      obtain ⟨gap, empty, split⟩ := ih
      refine ⟨gap, empty, ?_⟩
      rw [List.cons_append, List.cons_append, lines, split]
      rfl
  | case3 point rest apart ends ih =>
      cases rest with
      | nil =>
          -- The break comes last, so the line feed may be the second half of it.
          by_cases returns : point = carriageReturn
          · subst returns
            exact ⟨[], List.forall_mem_nil _, lines_return_lineFeed back⟩
          · refine ⟨[[]], alone, ?_⟩
            rw [List.cons_append, lines_cons_of_break ends fun _ same => absurd same returns,
              List.nil_append, lines_lineFeed_cons]
            rfl
      | cons next rest =>
          obtain ⟨gap, empty, split⟩ := ih
          refine ⟨gap, empty, ?_⟩
          rw [List.cons_append, lines_cons_of_break ends, split]
          · rfl
          · rintro more same together
            cases together
            exact apart rest same rfl
  | case4 point rest apart plain none ih =>
      obtain rfl := eq_nil_of_lines none
      have unbroken : Unbroken [point] :=
        List.forall_mem_singleton.mpr (Bool.eq_false_iff.mpr plain)
      exact ⟨[], List.forall_mem_nil _, lines_append_lineFeed unbroken back⟩
  | case5 point rest apart plain first more split ih =>
      obtain ⟨gap, empty, joined⟩ := ih
      refine ⟨gap, empty, ?_⟩
      rw [List.cons_append, lines_cons_of_unbroken (Bool.eq_false_iff.mpr plain), joined, split]
      rfl

/-- A carriage return ends a line as a line feed does, so it makes no difference which of them
stands there. -/
theorem lines_foldReturns (text : Text) : lines (foldReturns text) = lines text := by
  fun_induction foldReturns text with
  | case1 => rfl
  | case2 rest ih => rw [lines_lineFeed_cons, lines, ih]
  | case3 point rest apart ih =>
      by_cases returns : point = carriageReturn
      · have ends : isBreak point = true := returns ▸ by decide
        rw [if_pos returns, lines_lineFeed_cons, ih, lines_cons_of_break ends apart]
      · have single : ∀ (rest more : Text), point = carriageReturn → rest ≠ lineFeed :: more :=
          fun _ _ same => absurd same returns
        rw [if_neg returns]
        by_cases ends : isBreak point = true
        · rw [lines_cons_of_break ends (single _), lines_cons_of_break ends (single _), ih]
        · have plain := Bool.eq_false_iff.mpr ends
          rw [lines_cons_of_unbroken plain, lines_cons_of_unbroken plain, ih]

def mergePairs : Text → Text
  | [] => []
  | .char '\r' :: .char '\n' :: rest => lineFeed :: mergePairs rest
  | point :: rest => point :: mergePairs rest

def feedReturns (text : Text) : Text :=
  text.map fun point => if point = carriageReturn then lineFeed else point

theorem foldReturns_eq (text : Text) : foldReturns text = feedReturns (mergePairs text) := by
  fun_induction foldReturns text with
  | case1 => rfl
  | case2 rest ih =>
      rw [mergePairs, ih]
      rfl
  | case3 point rest apart ih =>
      rw [mergePairs, ih]
      · rfl
      · exact apart

section Trimming

variable {α : Type} (p : α → Bool)

def Tight (list : List α) : Prop :=
  (∀ first rest, list = first :: rest → p first = false) ∧
    ∀ front last, list = front ++ [last] → p last = false

theorem trimBy_eq_rdropWhile (list : List α) :
    trimBy p list = (list.dropWhile p).rdropWhile p := rfl

theorem trimBy_isInfix (list : List α) : trimBy p list <:+: list :=
  (List.rdropWhile_prefix p (list.dropWhile p)).isInfix.trans (List.dropWhile_suffix p).isInfix

theorem trimBy_tight (list : List α) : Tight p (trimBy p list) := by
  rw [trimBy_eq_rdropWhile]
  constructor
  · -- What is dropped at the end does not reach the first element that stays.
    intro first rest same
    obtain ⟨dropped, whole⟩ := List.rdropWhile_prefix p (list.dropWhile p)
    rw [same, List.cons_append] at whole
    have outside := List.head?_dropWhile_not p list
    rw [← whole] at outside
    exact Bool.eq_false_iff.mpr (by simpa using outside)
  · intro front last same
    have outside := List.rdropWhile_last_not p (list.dropWhile p) (by simp [same])
    simp only [same, List.getLast_append_singleton] at outside
    exact Bool.eq_false_iff.mpr outside

theorem exists_margins (list : List α) :
    ∃ front back, list = front ++ trimBy p list ++ back ∧
      (∀ item ∈ front, p item = true) ∧ ∀ item ∈ back, p item = true := by
  refine ⟨list.takeWhile p, (list.dropWhile p).rtakeWhile p, ?_, ?_, ?_⟩
  · rw [trimBy_eq_rdropWhile, List.append_assoc, List.rdropWhile_append_rtakeWhile,
      List.takeWhile_append_dropWhile]
  · exact fun item => List.mem_takeWhile_imp
  · exact fun item => List.mem_rtakeWhile_imp

theorem trimBy_map {β : Type} (f : β → α) (list : List β) :
    trimBy p (list.map f) = (trimBy (p ∘ f) list).map f := by
  simp only [trimBy, List.dropWhile_map, ← List.map_reverse]

variable {p}

theorem tight_of_forall {list : List α} (outside : ∀ item ∈ list, p item = false) :
    Tight p list := by
  refine ⟨?_, ?_⟩
  · rintro first rest rfl
    exact outside first List.mem_cons_self
  · rintro front last rfl
    exact outside last (List.mem_append_right front List.mem_cons_self)

theorem Tight.weaken {q : α → Bool} {list : List α} (tight : Tight p list)
    (within : ∀ item, q item = true → p item = true) : Tight q list := by
  have outside : ∀ item, p item = false → q item = false := by
    intro item out
    rw [Bool.eq_false_iff] at out ⊢
    exact mt (within item) out
  exact ⟨fun first rest split => outside first (tight.1 first rest split),
    fun front last split => outside last (tight.2 front last split)⟩

theorem trimBy_append {front back : List α} (before : ∀ item ∈ front, p item = true)
    (after : ∀ item ∈ back, p item = true) (list : List α) :
    trimBy p (front ++ list ++ back) = trimBy p list := by
  have none : back.dropWhile p = [] := by simpa using after
  have last : ∀ item ∈ back.reverse, p item = true := by simpa using after
  unfold trimBy
  rw [List.append_assoc, List.dropWhile_append_of_pos before, List.dropWhile_append]
  by_cases empty : (list.dropWhile p).isEmpty = true
  · rw [if_pos empty, none, List.isEmpty_iff.mp empty]
  · rw [if_neg empty, List.reverse_append, List.dropWhile_append_of_pos last]

theorem trimBy_of_tight {list : List α} (tight : Tight p list) : trimBy p list = list := by
  have front : list.dropWhile p = list := by
    cases list with
    | nil => rfl
    | cons first rest =>
        exact List.dropWhile_cons_of_neg (Bool.eq_false_iff.mp (tight.1 first rest rfl))
  rw [trimBy_eq_rdropWhile, front, List.rdropWhile_eq_self_iff]
  intro filled
  exact Bool.eq_false_iff.mp
    (tight.2 list.dropLast (list.getLast filled) (List.dropLast_append_getLast filled).symm)

end Trimming

end ScriptAudit.Text
