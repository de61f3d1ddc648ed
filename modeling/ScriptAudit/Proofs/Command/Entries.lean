import Mathlib.Data.List.Forall2
import ScriptAudit.Command.Table
import ScriptAudit.Proofs.Steps

/-!
Tables from the entries of a schema. An entry is refused for the first thing that is wrong with
it, or for an opcode that an entry before it has. A table is built entry by entry, so the first
entry that is refused decides the error and what stands behind it is not looked at. A table that
is built has the commands of its entries in their order.
-/
namespace ScriptAudit

namespace Json

inductive ListsCommands : Json → List Json → Prop where
  | bare {entries : List Json} : ListsCommands (.list entries) entries
  | held {fields : List (Text × Json)} {entries : List Json}
      (found : field? "commands" fields = some (.list entries)) :
      ListsCommands (.object fields) entries

end Json

namespace Command

theorem opcodeOfJson_ok_iff (raw : Json) (opcode : Int) :
    opcodeOfJson raw = .ok opcode ↔
      opcodeValue? raw = some opcode ∧ 0 ≤ opcode ∧ opcode < opcodeLimit := by
  unfold opcodeOfJson
  cases opcodeValue? raw with
  | none => simp
  | some value =>
      by_cases fits : 0 ≤ value ∧ value < opcodeLimit
      · simp only [fits, decide_true, Bool.and_self, ↓reduceIte, Except.ok.injEq,
          Option.some.injEq]
        constructor
        · rintro rfl
          exact ⟨rfl, fits⟩
        · exact And.left
      · have outside : (decide (0 ≤ value) && decide (value < opcodeLimit)) = false := by
          simpa only [← Bool.decide_and, decide_eq_false_iff_not] using fits
        simp only [outside, Bool.false_eq_true, ↓reduceIte, reduceCtorEq, Option.some.injEq,
          false_iff]
        rintro ⟨rfl, range⟩
        exact fits range

structure Complete (fields : List (Text × Json)) (raw name : Json) : Prop where
  coded : Json.field? "opcode" fields = some raw
  named : Json.field? "name" fields = some name

/-- What is wrong with an entry. Each defect counts only where none of those before it is
there, and a parameter only where all before it are right. -/
inductive Defect : Json → SchemaError → Prop where
  | notAnObject {entry : Json} (other : ∀ fields, entry ≠ .object fields) :
      Defect entry (.invalidCommand entry)
  | incomplete {fields : List (Text × Json)}
      (lacks : Json.field? "opcode" fields = none ∨ Json.field? "name" fields = none) :
      Defect (.object fields) (.incompleteCommand (.object fields))
  | opcode {fields : List (Text × Json)} {raw name : Json} {error : SchemaError}
      (complete : Complete fields raw name) (refused : opcodeOfJson raw = .error error) :
      Defect (.object fields) error
  | params {fields : List (Text × Json)} {raw name value : Json} {opcode : Int}
      (complete : Complete fields raw name) (accepted : opcodeOfJson raw = .ok opcode)
      (given : Json.field? "params" fields = some value) (counts : value.truth = true)
      (other : ∀ items, value ≠ .list items) :
      Defect (.object fields) (.paramsNotAList name)
  | param {fields : List (Text × Json)} {raw name bad : Json} {opcode : Int}
      {front back : List Json} {error : SchemaError}
      (complete : Complete fields raw name) (accepted : opcodeOfJson raw = .ok opcode)
      (given : Json.field? "params" fields = some (.list (front ++ bad :: back)))
      (fine : ∀ item ∈ front, ∃ param, Param.ofJson item = .ok param)
      (refused : Param.ofJson bad = .error error) :
      Defect (.object fields) error

theorem paramEntries_of_other {fields : List (Text × Json)} {value : Json} (name : Json)
    (given : Json.field? "params" fields = some value) (other : ∀ items, value ≠ .list items) :
    paramEntries name fields =
      if value.truth then .error (.paramsNotAList name) else .ok [] := by
  unfold paramEntries
  rw [given]
  cases value with
  | list items => exact absurd rfl (other items)
  | _ => rfl

theorem paramEntries_error_iff (name : Json) (fields : List (Text × Json)) (error : SchemaError) :
    paramEntries name fields = .error error ↔
      error = .paramsNotAList name ∧ ∃ value, Json.field? "params" fields = some value ∧
        value.truth = true ∧ ∀ items, value ≠ .list items := by
  cases given : Json.field? "params" fields with
  | none => simp [paramEntries, given]
  | some value =>
      by_cases list : ∃ items, value = .list items
      · obtain ⟨items, rfl⟩ := list
        simp [paramEntries, given]
      · have other := not_exists.mp list
        rw [paramEntries_of_other name given other]
        cases counts : value.truth with
        | false => simp [counts]
        | true => simpa [counts, other] using eq_comm

theorem field?_of_paramEntries {name : Json} {fields : List (Text × Json)} {entries : List Json}
    (listed : paramEntries name fields = .ok entries) (filled : entries ≠ []) :
    Json.field? "params" fields = some (.list entries) := by
  cases given : Json.field? "params" fields with
  | none =>
      simp only [paramEntries, given, Except.ok.injEq] at listed
      exact absurd listed.symm filled
  | some value =>
      by_cases list : ∃ items, value = .list items
      · obtain ⟨items, rfl⟩ := list
        simp only [paramEntries, given, Except.ok.injEq] at listed
        rw [listed]
      · rw [paramEntries_of_other name given (not_exists.mp list)] at listed
        cases counts : value.truth with
        | false =>
            simp only [counts, Bool.false_eq_true, ↓reduceIte, Except.ok.injEq] at listed
            exact absurd listed.symm filled
        | true =>
            rw [counts] at listed
            cases listed

theorem complete_or_lacks (fields : List (Text × Json)) :
    (∃ raw name, Complete fields raw name) ∨
      Json.field? "opcode" fields = none ∨ Json.field? "name" fields = none := by
  cases coded : Json.field? "opcode" fields with
  | none => exact Or.inr (Or.inl rfl)
  | some raw =>
      cases named : Json.field? "name" fields with
      | none => exact Or.inr (Or.inr rfl)
      | some name => exact Or.inl ⟨raw, name, coded, named⟩

theorem ofJson_of_lacks {fields : List (Text × Json)}
    (lacks : Json.field? "opcode" fields = none ∨ Json.field? "name" fields = none) :
    ofJson (.object fields) = .error (.incompleteCommand (.object fields)) := by
  rcases lacks with absent | absent
  · simp only [ofJson, absent]
  · cases coded : Json.field? "opcode" fields <;> simp only [ofJson, coded, absent]

theorem ofJson_object_error_iff {fields : List (Text × Json)} {raw name : Json}
    (complete : Complete fields raw name) (error : SchemaError) :
    ofJson (.object fields) = .error error ↔
      opcodeOfJson raw = .error error ∨ ∃ opcode, opcodeOfJson raw = .ok opcode ∧
        (paramEntries name fields = .error error ∨ ∃ entries,
          paramEntries name fields = .ok entries ∧
            entries.mapM Param.ofJson = .error error) := by
  simp only [ofJson, complete.coded, complete.named, Steps.except_error_iff, pure, Except.pure,
    reduceCtorEq, and_false, exists_false, or_false]

theorem ofJson_error_iff (entry : Json) (error : SchemaError) :
    ofJson entry = .error error ↔ Defect entry error := by
  constructor
  · intro failed
    cases entry with
    | object fields =>
        rcases complete_or_lacks fields with ⟨raw, name, complete⟩ | lacks
        · rcases (ofJson_object_error_iff complete error).mp failed with
            refused | ⟨opcode, accepted, refused | ⟨entries, listed, refused⟩⟩
          · exact .opcode complete refused
          · obtain ⟨rfl, value, given, counts, other⟩ :=
              (paramEntries_error_iff name fields error).mp refused
            exact .params complete accepted given counts other
          · obtain ⟨front, bad, back, rfl, fine, first⟩ := Steps.mapM_error_iff.mp refused
            have given := field?_of_paramEntries listed (by simp)
            exact .param complete accepted given fine first
        · rw [ofJson_of_lacks lacks] at failed
          cases failed
          exact .incomplete lacks
    | _ =>
        cases failed
        exact .notAnObject (by simp)
  · intro defect
    cases defect with
    | notAnObject other =>
        cases entry with
        | object fields => exact absurd rfl (other fields)
        | _ => rfl
    | incomplete lacks => exact ofJson_of_lacks lacks
    | opcode complete refused =>
        exact (ofJson_object_error_iff complete error).mpr (Or.inl refused)
    | @params fields _ name _ _ complete accepted given counts other =>
        have refused := (paramEntries_error_iff name fields _).mpr
          ⟨rfl, _, given, counts, other⟩
        exact (ofJson_object_error_iff complete _).mpr (Or.inr ⟨_, accepted, Or.inl refused⟩)
    | @param fields _ name bad _ front back _ complete accepted given fine first =>
        have refused := Steps.mapM_error_iff.mpr ⟨front, bad, back, rfl, fine, first⟩
        have listed : paramEntries name fields = .ok (front ++ bad :: back) := by
          rw [paramEntries, given]
        exact (ofJson_object_error_iff complete error).mpr
          (Or.inr ⟨_, accepted, Or.inr ⟨_, listed, refused⟩⟩)

theorem opcode_of_ofJson {entry : Json} {command : Command} (read : ofJson entry = .ok command) :
    0 ≤ command.opcode ∧ command.opcode < opcodeLimit := by
  cases entry with
  | object fields =>
      rcases complete_or_lacks fields with ⟨raw, name, complete⟩ | lacks
      · simp only [ofJson, complete.coded, complete.named, Steps.except_ok_iff] at read
        obtain ⟨opcode, accepted, _, _, _, _, same⟩ := read
        cases same
        exact ((opcodeOfJson_ok_iff raw opcode).mp accepted).2
      · rw [ofJson_of_lacks lacks] at read
        cases read
  | _ => cases read

end Command

namespace Table

theorem eq_of_commands {table other : Table} (same : table.commands = other.commands) :
    table = other := by
  cases table
  cases other
  cases same
  rfl

instance (json : Json) (table : Table) : Decidable (ofJson json = .ok table) :=
  decidable_of_iff ((ofJson json).toOption.map Table.commands = some table.commands) <| by
    cases ofJson json with
    | error error => simp [Except.toOption]
    | ok other =>
        rw [Except.toOption, Option.map_some, Option.some.injEq, Except.ok.injEq]
        exact ⟨eq_of_commands, congrArg commands⟩

abbrev Reads (entry : Json) (command : Command) : Prop := Command.ofJson entry = .ok command

instance (entry : Json) (command : Command) : Decidable (Reads entry command) :=
  decidable_of_iff ((Command.ofJson entry).toOption = some command) <| by
    unfold Reads
    cases Command.ofJson entry <;> simp [Except.toOption]

theorem addEntry_ok_iff (table after : Table) (entry : Json) :
    table.addEntry entry = .ok after ↔
      ∃ command, Reads entry command ∧ command.opcode ∉ table.commands.map Command.opcode ∧
        after.commands = table.commands ++ [command] := by
  rw [addEntry, Steps.except_ok_iff]
  refine exists_congr fun command => and_congr_right fun _ => ?_
  unfold add
  by_cases known : command.opcode ∈ table.commands.map Command.opcode
  · simp [known]
  · simp only [known, ↓reduceDIte, Except.ok.injEq, not_false_eq_true, true_and]
    exact ⟨fun same => same ▸ rfl, fun same => eq_of_commands same.symm⟩

theorem addEntry_error_iff (table : Table) (entry : Json) (error : SchemaError) :
    table.addEntry entry = .error error ↔
      Command.ofJson entry = .error error ∨ ∃ command, Reads entry command ∧
        command.opcode ∈ table.commands.map Command.opcode ∧
          error = .duplicateOpcode command.opcode := by
  rw [addEntry, Steps.except_error_iff]
  refine or_congr_right (exists_congr fun command => and_congr_right fun _ => ?_)
  unfold add
  by_cases known : command.opcode ∈ table.commands.map Command.opcode
  · simp only [known, ↓reduceDIte, Except.error.injEq, true_and]
    exact eq_comm
  · simp [known]

/-- A table grows by the commands of the entries. That no opcode comes twice is said by the
table that is reached. -/
theorem foldlM_addEntry_ok_iff (table after : Table) (entries : List Json) :
    entries.foldlM addEntry table = .ok after ↔
      ∃ added, List.Forall₂ Reads entries added ∧ after.commands = table.commands ++ added := by
  induction entries generalizing table with
  | nil =>
      simp only [List.foldlM_nil, List.forall₂_nil_left_iff, exists_eq_left, List.append_nil]
      constructor
      · intro same
        cases same
        rfl
      · intro same
        rw [eq_of_commands same]
        rfl
  | cons entry rest ih =>
      rw [List.foldlM_cons, Steps.except_ok_iff]
      constructor
      · rintro ⟨middle, step, later⟩
        obtain ⟨command, read, _, grown⟩ := (addEntry_ok_iff table middle entry).mp step
        obtain ⟨added, reads, reached⟩ := (ih middle).mp later
        refine ⟨command :: added, .cons read reads, ?_⟩
        rw [reached, grown, List.append_assoc]
        rfl
      · rintro ⟨_, reads, reached⟩
        obtain ⟨command, added, read, others, rfl⟩ := List.forall₂_cons_left_iff.mp reads
        -- No opcode comes twice in the table that is reached, so this one is new where it is added.
        have distinct := after.distinct
        rw [reached, List.append_cons, List.map_append, List.nodup_append] at distinct
        let middle : Table := ⟨table.commands ++ [command], distinct.1⟩
        refine ⟨middle, (addEntry_ok_iff table middle entry).mpr ⟨command, read, ?_, rfl⟩, ?_⟩
        · have front := distinct.1
          rw [List.map_append, List.nodup_append] at front
          exact fun known => front.2.2 _ known _ List.mem_cons_self rfl
        · refine (ih middle).mpr ⟨added, others, ?_⟩
          rw [reached, List.append_cons]

theorem ofEntries_ok_iff (entries : List Json) (table : Table) :
    ofEntries entries = .ok table ↔ List.Forall₂ Reads entries table.commands := by
  rw [ofEntries, foldlM_addEntry_ok_iff]
  simp [empty]

inductive Refused (earlier : List Json) (entry : Json) : SchemaError → Prop where
  | defect {error : SchemaError} (failed : Command.ofJson entry = .error error) :
      Refused earlier entry error
  | repeated {before : Json} {first command : Command} (member : before ∈ earlier)
      (known : Reads before first) (read : Reads entry command)
      (same : first.opcode = command.opcode) :
      Refused earlier entry (.duplicateOpcode command.opcode)

theorem mem_opcodes_iff {entries : List Json} {commands : List Command}
    (reads : List.Forall₂ Reads entries commands) (opcode : Int) :
    opcode ∈ commands.map Command.opcode ↔
      ∃ entry ∈ entries, ∃ command, Reads entry command ∧ command.opcode = opcode := by
  induction reads with
  | nil => simp
  | @cons entry command entries commands read _ ih =>
      have only : (∃ other, Reads entry other ∧ other.opcode = opcode) ↔
          command.opcode = opcode := by
        simp only [Reads, read, Except.ok.injEq, exists_eq_left']
      rw [List.exists_mem_cons_iff, only, List.map_cons, List.mem_cons, ih, eq_comm]

theorem addEntry_refused_iff {earlier : List Json} {table : Table}
    (built : ofEntries earlier = .ok table) (entry : Json) (error : SchemaError) :
    table.addEntry entry = .error error ↔ Refused earlier entry error := by
  have opcodes := mem_opcodes_iff ((ofEntries_ok_iff earlier table).mp built)
  rw [addEntry_error_iff]
  constructor
  · rintro (failed | ⟨command, read, known, rfl⟩)
    · exact .defect failed
    · obtain ⟨before, member, first, holds, same⟩ := (opcodes command.opcode).mp known
      exact .repeated member holds read same
  · intro refused
    cases refused with
    | defect failed => exact Or.inl failed
    | repeated member known read same =>
        exact Or.inr ⟨_, read, (opcodes _).mpr ⟨_, member, _, known, same⟩, rfl⟩

/-- There is a table exactly where no entry is refused. -/
theorem exists_ofEntries_iff (entries : List Json) :
    (∃ table, ofEntries entries = .ok table) ↔
      ∀ earlier entry later error, entries = earlier ++ entry :: later →
        ¬ Refused earlier entry error := by
  constructor
  · -- The table that the entries before it give refuses the entry, so the rest is not reached.
    rintro ⟨table, built⟩ earlier entry later error rfl refused
    rw [ofEntries, List.foldlM_append, Steps.except_ok_iff] at built
    obtain ⟨middle, front, back⟩ := built
    rw [List.foldlM_cons, (addEntry_refused_iff front entry error).mpr refused] at back
    cases back
  · intro fine
    cases result : ofEntries entries with
    | ok table => exact ⟨table, rfl⟩
    | error error =>
        obtain ⟨earlier, entry, later, middle, split, front, refused⟩ :=
          Steps.foldlM_error_iff.mp result
        exact absurd ((addEntry_refused_iff front entry error).mp refused)
          (fine earlier entry later error split)

structure FirstRefused (entries earlier : List Json) (entry : Json) (later : List Json)
    (error : SchemaError) : Prop where
  split : entries = earlier ++ entry :: later
  refused : Refused earlier entry error
  taken : ∀ front other back reason, earlier = front ++ other :: back →
    ¬ Refused front other reason

theorem ofEntries_error_iff (entries : List Json) (error : SchemaError) :
    ofEntries entries = .error error ↔
      ∃ earlier entry later, FirstRefused entries earlier entry later error := by
  constructor
  · intro failed
    obtain ⟨earlier, entry, later, middle, split, front, refused⟩ :=
      Steps.foldlM_error_iff.mp failed
    exact ⟨earlier, entry, later, split, (addEntry_refused_iff front entry error).mp refused,
      (exists_ofEntries_iff earlier).mp ⟨middle, front⟩⟩
  · rintro ⟨earlier, entry, later, split, refused, taken⟩
    obtain ⟨middle, front⟩ := (exists_ofEntries_iff earlier).mpr taken
    exact Steps.foldlM_error_iff.mpr ⟨earlier, entry, later, middle, split, front,
      (addEntry_refused_iff front entry error).mpr refused⟩

theorem ofJson_of_lists {json : Json} {entries : List Json} (lists : json.ListsCommands entries) :
    ofJson json = ofEntries entries := by
  cases lists with
  | bare => rfl
  | held found => simp only [ofJson, found]

theorem exists_lists {json : Json} {table : Table} (built : ofJson json = .ok table) :
    ∃ entries, json.ListsCommands entries := by
  cases json with
  | list entries => exact ⟨entries, .bare⟩
  | object fields =>
      cases found : Json.field? "commands" fields with
      | none => simp [ofJson, found] at built
      | some value =>
          cases value with
          | list entries => exact ⟨entries, .held found⟩
          | _ => simp [ofJson, found] at built
  | _ => cases built

theorem ofJson_reads {json : Json} {table : Table} (built : ofJson json = .ok table) :
    ∃ entries, json.ListsCommands entries ∧ List.Forall₂ Reads entries table.commands := by
  obtain ⟨entries, lists⟩ := exists_lists built
  rw [ofJson_of_lists lists] at built
  exact ⟨entries, lists, (ofEntries_ok_iff entries table).mp built⟩

theorem opcode_range {json : Json} {table : Table} (built : ofJson json = .ok table) :
    ∀ command ∈ table.commands, 0 ≤ command.opcode ∧ command.opcode < Command.opcodeLimit := by
  obtain ⟨entries, -, reads⟩ := ofJson_reads built
  generalize table.commands = commands at reads
  induction reads with
  | nil => exact List.forall_mem_nil _
  | cons read _ ih => exact List.forall_mem_cons.mpr ⟨Command.opcode_of_ofJson read, ih⟩

/-- A schema fails exactly where one of its entries is refused, with the error of the first such
entry: the first defect that the entry has, or else the opcode that it shares with an entry before
it. What stands behind that entry makes no difference. -/
theorem first_refusal_decides {json : Json} {entries : List Json}
    (lists : json.ListsCommands entries) :
    ((∃ error, ofJson json = .error error) ↔
      ∃ earlier entry later error, entries = earlier ++ entry :: later ∧
        Refused earlier entry error) ∧
    (∀ error, ofJson json = .error error ↔
      ∃ earlier entry later, FirstRefused entries earlier entry later error) ∧
    (∀ entry error, Command.ofJson entry = .error error ↔ Command.Defect entry error) ∧
    ∀ earlier entry later error, FirstRefused entries earlier entry later error →
      ∀ others, ofJson (.list (earlier ++ entry :: others)) = .error error := by
  rw [ofJson_of_lists lists]
  refine ⟨?_, ofEntries_error_iff entries, Command.ofJson_error_iff, ?_⟩
  · constructor
    · rintro ⟨error, failed⟩
      obtain ⟨earlier, entry, later, first⟩ := (ofEntries_error_iff entries error).mp failed
      exact ⟨earlier, entry, later, error, first.split, first.refused⟩
    · rintro ⟨earlier, entry, later, error, split, refused⟩
      cases result : ofEntries entries with
      | error reason => exact ⟨reason, rfl⟩
      | ok table =>
          have taken := (exists_ofEntries_iff entries).mp ⟨table, result⟩
          exact absurd refused (taken earlier entry later error split)
  · intro earlier entry later error first others
    exact (ofEntries_error_iff _ error).mpr
      ⟨earlier, entry, others, rfl, first.refused, first.taken⟩

def pauseEntry : Json := .object [("opcode", .integer 1), ("name", .string "wait")]

def echoEntry : Json := .object [("opcode", .string "0x0001"), ("name", .string "pause")]

/-- The entry in front of a third one that lacks everything decides. -/
theorem echoEntry_decides :
    Json.ListsCommands (.list [pauseEntry, echoEntry, .object []])
        [pauseEntry, echoEntry, .object []] ∧
      Command.Defect (.object []) (.incompleteCommand (.object [])) ∧
      ofJson (.list [pauseEntry, echoEntry, .object []]) = .error (.duplicateOpcode 1) := by
  have lists := @Json.ListsCommands.bare [pauseEntry, echoEntry, .object []]
  have pause : Reads pauseEntry { opcode := 1, name := "wait" } := by decide +kernel
  have echo : Reads echoEntry { opcode := 1, name := "pause" } := by decide +kernel
  have alone : ofEntries [pauseEntry] = .ok ⟨[{ opcode := 1, name := "wait" }], by decide⟩ :=
    (ofEntries_ok_iff _ _).mpr (.cons pause .nil)
  have first : FirstRefused [pauseEntry, echoEntry, .object []] [pauseEntry] echoEntry
      [.object []] (.duplicateOpcode 1) :=
    ⟨rfl, .repeated List.mem_cons_self pause echo rfl, (exists_ofEntries_iff _).mp ⟨_, alone⟩⟩
  obtain ⟨_, decides, _, _⟩ := first_refusal_decides lists
  exact ⟨lists, .incomplete (Or.inl rfl), (decides _).mpr ⟨_, _, _, first⟩⟩

end Table
end ScriptAudit
