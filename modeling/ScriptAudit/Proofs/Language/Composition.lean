import ScriptAudit.Proofs.Language.NormalForm

/-!
Language files in parts. A text that is put together from others with line feeds between them is
read as these are read one after the other: entries go into what the earlier parts have given,
and reports follow each other. So what single lines are read as determines the rest. Which of the
usual ends the lines have makes no difference.
-/
namespace ScriptAudit.Language

theorem filterMap_linesOf_append {α : Type} {read : Line → Option α}
    (skips : read .blank = none) (front back : Text) :
    (linesOf (front ++ Text.lineFeed :: back)).filterMap read =
      (linesOf front).filterMap read ++ (linesOf back).filterMap read := by
  obtain ⟨gap, empty, split⟩ := Text.lines_append_lineFeed_cons front back
  -- An empty line is blank, so one that comes in between is not noticed.
  have nothing : (gap.map Line.ofRaw).filterMap read = [] := by
    apply List.filterMap_eq_nil_iff.mpr
    intro line member
    obtain ⟨raw, among, rfl⟩ := List.mem_map.mp member
    rw [empty raw among]
    exact skips
  simp only [linesOf, split, List.map_append, List.filterMap_append, nothing, List.append_nil]

theorem entries_append (front back : Text) :
    entries (front ++ Text.lineFeed :: back) =
      Association.update (entries front) (entries back) := by
  have none : (([] : Entries).map Prod.fst).Nodup := List.nodup_nil
  calc entries (front ++ Text.lineFeed :: back)
    _ = Association.update [] ((linesOf front).filterMap Line.entry? ++
          (linesOf back).filterMap Line.entry?) := by
        rw [entries, filterMap_linesOf_append rfl]
    _ = Association.update (entries front) ((linesOf back).filterMap Line.entry?) :=
        Association.update_append _ _ _
    _ = Association.update (entries front) (entries back) :=
        (Association.update_update none (entries front) _).symm

theorem parse_append (front back : Text) :
    parse (front ++ Text.lineFeed :: back) =
      (Association.update (parse front).1 (parse back).1, (parse front).2 ++ (parse back).2) :=
  Prod.ext (entries_append front back) (filterMap_linesOf_append rfl front back)

theorem parse_of_unbroken {line : Text} (unbroken : Text.Unbroken line) :
    parse line =
      ([Line.ofRaw line].filterMap Line.entry?, [Line.ofRaw line].filterMap Line.warning?) := by
  cases line with
  | nil => rfl
  | cons point rest =>
      have single : Text.lines (point :: rest) = [point :: rest] :=
        Text.lines_of_unbroken unbroken (List.cons_ne_nil point rest)
      simp only [parse, entries, warnings, linesOf, single, List.map_cons, List.map_nil]
      cases Line.ofRaw (point :: rest) <;> rfl

/-- Entries may go into a store part by part or all at once. -/
theorem update_entries_join (texts : List Text) (store : Entries) :
    Association.update store (entries (Text.join [Text.lineFeed] texts)) =
      texts.foldl (fun store text => Association.update store (entries text)) store := by
  induction texts generalizing store with
  | nil => rfl
  | cons text rest ih =>
      cases rest with
      | nil =>
          rw [Text.join, List.intercalate_singleton]
          rfl
      | cons next rest =>
          calc Association.update store (entries (Text.join [Text.lineFeed] (text :: next :: rest)))
            _ = Association.update store (Association.update (entries text)
                  (entries (Text.join [Text.lineFeed] (next :: rest)))) :=
                congrArg _ (entries_append text _)
            _ = Association.update (Association.update store (entries text))
                  (entries (Text.join [Text.lineFeed] (next :: rest))) :=
                Association.update_update (entries_normal text).distinct store _
            _ = _ := ih (Association.update store (entries text))

/-- Reading in text mode is not noticed. -/
theorem parse_foldReturns (text : Text) : parse (Text.foldReturns text) = parse text := by
  simp only [parse, entries, warnings, linesOf, Text.lines_foldReturns]

end ScriptAudit.Language
