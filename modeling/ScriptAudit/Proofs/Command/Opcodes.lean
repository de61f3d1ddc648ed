import ScriptAudit.CommandLine.Lookup
import ScriptAudit.Proofs.Command.Indexes
import ScriptAudit.Proofs.Text.Numeral

/-!
Opcodes as text. The reader of a schema takes off all blanks and one mark before it reads a
numeral, which may have blanks, a sign and a mark of its own; a look-up reads the numeral at once.
So the two agree exactly on what is plainly written: where the blanks around it are those of
numerals, and only digits come behind the mark. Where they do not agree, the look-up finds nothing.
-/
namespace ScriptAudit

namespace Text

theorem chars?_ofChars (chars : List Char) : (ofChars chars).chars? = some chars := by
  induction chars with
  | nil => rfl
  | cons c rest ih =>
      rw [ofChars, List.map_cons, chars?, List.mapM_cons]
      rw [ofChars, chars?] at ih
      rw [ih]
      rfl

theorem eq_ofChars {text : Text} {chars : List Char} (same : text.chars? = some chars) :
    text = ofChars chars := by
  induction text generalizing chars with
  | nil =>
      cases same
      rfl
  | cons point rest ih =>
      rw [chars?, List.mapM_cons] at same
      obtain ⟨c, here, others⟩ := Option.bind_eq_some_iff.mp same
      obtain ⟨more, later, whole⟩ := Option.bind_eq_some_iff.mp others
      cases whole
      cases point with
      | surrogate place => cases here
      | char c' =>
          cases here
          rw [ih later]
          rfl

theorem ofChars_append (front back : List Char) :
    ofChars (front ++ back) = ofChars front ++ ofChars back := List.map_append

/-- No surrogate is blank. -/
theorem exists_chars_of_blank {text : Text} (blank : ∀ point ∈ text, isBlank point = true) :
    ∃ chars, text = ofChars chars := by
  induction text with
  | nil => exact ⟨[], rfl⟩
  | cons point rest ih =>
      obtain ⟨here, others⟩ := List.forall_mem_cons.mp blank
      obtain ⟨chars, rfl⟩ := ih others
      cases point with
      | char c => exact ⟨c :: chars, rfl⟩
      | surrogate place =>
          have low : ∀ code ∈ blankCodes, code < CodePoint.firstSurrogate := by decide
          have high := low _ (List.contains_iff_mem.mp here)
          exact absurd high (Nat.not_lt.mpr (Nat.le_add_right _ _))

structure Trimmed (text : Text) (front core back : List Char) : Prop where
  whole : text = ofChars (front ++ core ++ back)
  before : ∀ c ∈ front, isBlank (.char c) = true
  after : ∀ c ∈ back, isBlank (.char c) = true
  tight : Tight (fun c => isBlank (.char c)) core

theorem Trimmed.trimBy_eq {text : Text} {front core back : List Char}
    (parts : Trimmed text front core back) :
    trimBy (fun c => isBlank (.char c)) (front ++ core ++ back) = core := by
  rw [trimBy_append parts.before parts.after, trimBy_of_tight parts.tight]

theorem Trimmed.trim {text : Text} {front core back : List Char}
    (parts : Trimmed text front core back) : Text.trim text = ofChars core := by
  rw [parts.whole, Text.trim, ofChars, trimBy_map]
  exact congrArg ofChars parts.trimBy_eq

theorem exists_trimmed {text : Text} {core : List Char} (same : (trim text).chars? = some core) :
    ∃ front back, Trimmed text front core back := by
  have core_eq := eq_ofChars same
  obtain ⟨front, back, whole, before, after⟩ := exists_margins isBlank text
  obtain ⟨front, rfl⟩ := exists_chars_of_blank before
  obtain ⟨back, rfl⟩ := exists_chars_of_blank after
  rw [← trim, core_eq] at whole
  refine ⟨front, back, ?_, ?_, ?_, ?_⟩
  · rw [whole, ofChars_append, ofChars_append]
  · exact fun c member => before _ (List.mem_map_of_mem member)
  · exact fun c member => after _ (List.mem_map_of_mem member)
  · have tight := trimBy_tight isBlank text
    rw [← trim, core_eq] at tight
    refine ⟨fun first rest split => ?_, fun front last split => ?_⟩
    · exact tight.1 (.char first) (ofChars rest) (by rw [split]; rfl)
    · exact tight.2 (ofChars front) (.char last) (by rw [split, ofChars_append]; rfl)

def Marked (core rest : List Char) : Prop := core = '0' :: 'x' :: rest ∨ core = '0' :: 'X' :: rest

theorem Marked.unique {core rest other : List Char} (marked : Marked core rest)
    (again : Marked core other) : other = rest := by
  rcases marked with rfl | rfl <;> rcases again with same | same <;> cases same <;> rfl

/-- The four controls that separate, which are blank to all but a numeral. -/
def IsSeparator (point : CodePoint) : Prop := 0x1C ≤ point.code ∧ point.code ≤ 0x1F

theorem IsSeparator.blank {point : CodePoint} (separates : IsSeparator point) :
    isBlank point = true := by
  obtain ⟨low, high⟩ := separates
  rw [isBlank, List.contains_iff_mem]
  simp only [blankCodes, List.mem_cons]
  omega

theorem isNumeralBlank_iff (c : Char) :
    isNumeralBlank c = true ↔ isBlank (.char c) = true ∧ ¬ IsSeparator (.char c) := by
  rw [isNumeralBlank, ← Bool.decide_and, Bool.and_eq_true, Bool.not_eq_true',
    decide_eq_false_iff_not]
  rfl

/-- A numeral as it is meant to be written: no separators around it, and nothing but digits and
underscores behind the mark. -/
structure Plain (text : Text) : Prop where
  blanks : ∀ point ∈ text, ¬ IsSeparator point
  digits : ∀ core rest, trim text = ofChars core → Marked core rest →
    ∀ c ∈ rest, InNumeral 16 c

namespace Trimmed

variable {text : Text} {front core back : List Char}

theorem mem_parts {c : Char} : c ∈ front ++ core ++ back ↔ c ∈ front ++ back ∨ c ∈ core := by
  simp only [List.mem_append]
  exact or_right_comm

theorem blank (parts : Trimmed text front core back) {c : Char} (margin : c ∈ front ++ back) :
    isBlank (.char c) = true :=
  (List.mem_append.mp margin).elim (parts.before c) (parts.after c)

theorem tightNumeral (parts : Trimmed text front core back) : Tight isNumeralBlank core :=
  parts.tight.weaken fun _ => isBlank_of_numeralBlank

theorem plain_iff (parts : Trimmed text front core back) :
    Plain text ↔ (∀ point ∈ text, ¬ IsSeparator point) ∧
      ∀ rest, Marked core rest → ∀ c ∈ rest, InNumeral 16 c := by
  constructor
  · intro plain
    exact ⟨plain.blanks, fun rest => plain.digits core rest parts.trim⟩
  · rintro ⟨blanks, digits⟩
    refine ⟨blanks, fun other rest trimmed => ?_⟩
    have same := congrArg chars? (trimmed.symm.trans parts.trim)
    rw [chars?_ofChars, chars?_ofChars] at same
    rw [Option.some.inj same]
    exact digits rest

/-- A look-up reads a text where it reads the trimmed one and the blanks around that are those
of numerals. -/
theorem hexadecimal?_iff (parts : Trimmed text front core back) (number : Int) :
    hexadecimal? (front ++ core ++ back) = some number ↔
      hexadecimal? core = some number ∧ ∀ c ∈ front ++ back, isNumeralBlank c = true := by
  constructor
  · intro read
    have same : trimBy isNumeralBlank (front ++ core ++ back) = core :=
      (trimBy_of_hexadecimal? read).trans parts.trimBy_eq
    refine ⟨?_, fun c member => ?_⟩
    · rw [hexadecimal?, same] at read
      rw [hexadecimal?, trimBy_of_tight parts.tightNumeral, read]
    · have inside : c ∈ front ++ core ++ back := mem_parts.mpr (Or.inl member)
      rcases blanks_of_hexadecimal? read c inside with admitted | unblank
      · exact admitted
      · rw [parts.blank member] at unblank
        cases unblank
  · rintro ⟨read, blanks⟩
    rw [List.forall_mem_append] at blanks
    rw [hexadecimal?_margins blanks.1 blanks.2, read]

end Trimmed

end Text

namespace Command

open Text

theorem opcodeOfText?_eq_some {text : Text} {opcode : Int}
    (read : opcodeOfText? text = some opcode) :
    ∃ core, (trim text).chars? = some core := by
  cases same : (trim text).chars? with
  | none =>
      rw [opcodeOfText?, same] at read
      cases read
  | some core => exact ⟨core, rfl⟩

theorem opcodeOfText?_marked {text : Text} {core rest : List Char}
    (trimmed : trim text = ofChars core) (marked : Marked core rest) :
    opcodeOfText? text = hexadecimal? rest := by
  rw [opcodeOfText?, trimmed, chars?_ofChars]
  rcases marked with rfl | rfl
  · exact hexadecimal?_map_toLower rest
  · exact hexadecimal?_map_toLower rest

theorem opcodeOfText?_unmarked {text : Text} {core : List Char}
    (trimmed : trim text = ofChars core) (unmarked : ∀ rest, ¬ Marked core rest) :
    opcodeOfText? text = hexadecimal? core := by
  simp only [opcodeOfText?, trimmed, chars?_ofChars, Option.bind_eq_bind, Option.bind_some]
  split
  case h_1 rest lower =>
    obtain ⟨zero, others, rfl, first, more⟩ := List.map_eq_cons_iff.mp lower
    obtain ⟨x, rest, rfl, second, -⟩ := List.map_eq_cons_iff.mp more
    obtain rfl := (toLower_eq_iff (by decide) zero).mp first
    rcases (toLower_eq_x_iff x).mp second with rfl | rfl
    · exact absurd (Or.inl rfl) (unmarked rest)
    · exact absurd (Or.inr rfl) (unmarked rest)
  case h_2 => exact hexadecimal?_map_toLower core

section Accepted

variable {text : Text} {front core back : List Char} {opcode : Int}

theorem exists_numeral (parts : Trimmed text front core back)
    (accepted : opcodeOfText? text = some opcode) :
    (∃ rest, Marked core rest ∧ hexadecimal? rest = some opcode) ∨
      (∀ rest, ¬ Marked core rest) ∧ hexadecimal? core = some opcode := by
  by_cases marked : ∃ rest, Marked core rest
  · obtain ⟨rest, mark⟩ := marked
    exact Or.inl ⟨rest, mark, (opcodeOfText?_marked parts.trim mark).symm.trans accepted⟩
  · have unmarked := not_exists.mp marked
    exact Or.inr ⟨unmarked, (opcodeOfText?_unmarked parts.trim unmarked).symm.trans accepted⟩

theorem hexadecimal?_of_marked {rest : List Char} (parts : Trimmed text front core back)
    (marked : Marked core rest) (read : hexadecimal? rest = some opcode) :
    hexadecimal? core = (readDigits 16 rest).map Int.ofNat := by
  obtain ⟨x, mark, rfl⟩ : ∃ x, (x = 'x' ∨ x = 'X') ∧ core = '0' :: x :: rest := by
    rcases marked with rfl | rfl
    · exact ⟨'x', Or.inl rfl, rfl⟩
    · exact ⟨'X', Or.inr rfl, rfl⟩
  refine hexadecimal?_marked mark parts.tightNumeral ?_
  -- The look-up would pass over an underscore here, which the schema does not read.
  intro spaced
  obtain ⟨more, rfl⟩ := List.head?_eq_some_iff.mp spaced
  have tight : Tight isNumeralBlank ('_' :: more) := by
    refine ⟨fun first rest split => ?_, fun front last split => ?_⟩
    · cases split
      decide
    · exact parts.tightNumeral.2 ('0' :: x :: front) last (by rw [split]; rfl)
  rw [hexadecimal?_underscore tight] at read
  cases read

theorem hexadecimal?_core_iff (parts : Trimmed text front core back)
    (accepted : opcodeOfText? text = some opcode) (number : Int) :
    hexadecimal? core = some number ↔
      number = opcode ∧ ∀ rest, Marked core rest → ∀ c ∈ rest, InNumeral 16 c := by
  rcases exists_numeral parts accepted with ⟨rest, marked, read⟩ | ⟨unmarked, read⟩
  · rw [hexadecimal?_of_marked parts marked read]
    constructor
    · -- Digits that are read at once are read alike where a sign and a mark are looked for.
      intro digits
      obtain ⟨value, found, _⟩ := Option.map_eq_some_iff.mp digits
      have inside := inNumeral_of_readDigits found
      rw [← hexadecimal?_of_inNumeral inside, read] at digits
      refine ⟨(Option.some.inj digits).symm, fun other again => ?_⟩
      rw [marked.unique again]
      exact inside
    · rintro ⟨rfl, digits⟩
      rw [← hexadecimal?_of_inNumeral (digits rest marked), read]
  · rw [read, Option.some.injEq, eq_comm]
    exact (and_iff_left fun rest marked => absurd marked (unmarked rest)).symm

theorem not_separator_of_core (parts : Trimmed text front core back)
    (accepted : opcodeOfText? text = some opcode) :
    ∀ c ∈ core, ¬ IsSeparator (.char c) := by
  have plain : ∀ {chars}, hexadecimal? chars = some opcode →
      ∀ c ∈ chars, ¬ IsSeparator (.char c) := by
    intro chars read c member separates
    rcases blanks_of_hexadecimal? read c member with admitted | unblank
    · exact ((isNumeralBlank_iff c).mp admitted).2 separates
    · rw [separates.blank] at unblank
      cases unblank
  have signs : ∀ c ∈ ['0', 'x', 'X'], ¬ IsSeparator (.char c) := by
    unfold IsSeparator
    exact List.all_iff_forall_prop.mp (by decide)
  rcases exists_numeral parts accepted with ⟨rest, rfl | rfl, read⟩ | ⟨_, read⟩
  · exact List.forall_mem_cons.mpr ⟨signs '0' (by decide),
      List.forall_mem_cons.mpr ⟨signs 'x' (by decide), plain read⟩⟩
  · exact List.forall_mem_cons.mpr ⟨signs '0' (by decide),
      List.forall_mem_cons.mpr ⟨signs 'X' (by decide), plain read⟩⟩
  · exact plain read

theorem numeralBlanks_iff (parts : Trimmed text front core back)
    (accepted : opcodeOfText? text = some opcode) :
    (∀ c ∈ front ++ back, isNumeralBlank c = true) ↔ ∀ point ∈ text, ¬ IsSeparator point := by
  constructor
  · intro blanks point member
    rw [parts.whole] at member
    obtain ⟨c, inside, rfl⟩ := List.mem_map.mp member
    rcases Trimmed.mem_parts.mp inside with margin | middle
    · exact ((isNumeralBlank_iff c).mp (blanks c margin)).2
    · exact not_separator_of_core parts accepted c middle
  · intro unseparated c margin
    refine (isNumeralBlank_iff c).mpr ⟨parts.blank margin, unseparated _ ?_⟩
    rw [parts.whole]
    exact List.mem_map_of_mem (Trimmed.mem_parts.mpr (Or.inl margin))

/-- Of the texts that a schema takes for an opcode, a look-up reads those that are plainly
written, and these alike. -/
theorem hexadecimal?_iff_plain (accepted : opcodeOfText? text = some opcode) (number : Int) :
    text.chars?.bind hexadecimal? = some number ↔ number = opcode ∧ Plain text := by
  obtain ⟨core, same⟩ := opcodeOfText?_eq_some accepted
  obtain ⟨front, back, parts⟩ := exists_trimmed same
  have chars : text.chars? = some (front ++ core ++ back) := by
    rw [parts.whole, chars?_ofChars]
  rw [chars, Option.bind_some, parts.hexadecimal?_iff, hexadecimal?_core_iff parts accepted,
    numeralBlanks_iff parts accepted, parts.plain_iff]
  tauto

end Accepted

end Command

namespace Lookup

theorem opcode?_of_accepted {text : Text} {opcode : Int}
    (accepted : Command.opcodeOfJson (.string text) = .ok opcode) :
    (Text.Plain text → opcode? text = some opcode) ∧ (¬ Text.Plain text → opcode? text = none) := by
  obtain ⟨read, low, high⟩ := (Command.opcodeOfJson_ok_iff _ opcode).mp accepted
  have reads := Command.hexadecimal?_iff_plain read
  unfold opcode?
  constructor
  · intro plain
    rw [(reads opcode).mpr ⟨rfl, plain⟩, Option.map_some, Int.emod_eq_of_lt low high]
  · intro other
    cases found : text.chars?.bind Text.hexadecimal? with
    | none => rfl
    | some number => exact absurd ((reads number).mp found).2 other

theorem command?_of_unnamed {table : Table} {token : Text}
    (unnamed : ∀ command ∈ table.commands, command.name ≠ token) :
    command? table token = (opcode? token).bind table.lookup := by
  rw [command?, (table.named_eq_none_iff token).mpr unnamed]

/-- The two readers of opcodes agree exactly on what is plainly written. A text that a schema takes
for an opcode leads a look-up to the same opcode then, and otherwise to none. -/
theorem readers_agree_iff {text : Text} {opcode : Int}
    (accepted : Command.opcodeOfJson (.string text) = .ok opcode) :
    (opcode? text = some opcode ∨ opcode? text = none) ∧
    (opcode? text = some opcode ↔ Text.Plain text) ∧
    ∀ (table : Table) (command : Command), table.lookup opcode = some command →
      (∀ other ∈ table.commands, other.name ≠ text) →
      (command? table text = some command ↔ Text.Plain text) := by
  obtain ⟨agrees, fails⟩ := opcode?_of_accepted accepted
  by_cases plain : Text.Plain text
  · have same := agrees plain
    refine ⟨Or.inl same, iff_of_true same plain, fun table command found unnamed => ?_⟩
    rw [command?_of_unnamed unnamed, same]
    exact iff_of_true found plain
  · have none := fails plain
    refine ⟨Or.inr none, iff_of_false (by simp [none]) plain, fun table command _ unnamed => ?_⟩
    rw [command?_of_unnamed unnamed, none]
    exact iff_of_false (by simp) plain

theorem capitalMark_agrees :
    Command.opcodeOfJson (.string "\t0X0_d6 ") = .ok 0xD6 ∧ Text.Plain "\t0X0_d6 " ∧
      command? Table.twinTable "\t0X0_d6 " =
        some { opcode := 0xD6, name := "if", returns := true } := by
  have accepted : Command.opcodeOfJson (.string "\t0X0_d6 ") = .ok 0xD6 :=
    (Command.opcodeOfJson_ok_iff _ _).mpr ⟨by decide +kernel, by decide, by decide⟩
  obtain ⟨_, agrees, leads⟩ := readers_agree_iff accepted
  have plain := agrees.mp (by decide +kernel)
  exact ⟨accepted, plain, (leads _ _ (by decide) (by decide)).mpr plain⟩

def doubledSchema : Json :=
  .list [.object [("opcode", .string "0x0x51"), ("name", .string "return")]]

def doubledTable : Table := ⟨[{ opcode := 0x51, name := "return" }], by decide⟩

/-- A second mark, a blank or a sign behind the mark and a separator are taken in a schema, and a
look-up knows none of them. -/
theorem doubledMark_unknown :
    (∀ text ∈ (["0x0x51", "0x 51", "0x+51", "\x1c51"] : List String),
      Command.opcodeOfJson (.string text) = .ok 0x51 ∧ opcode? text = none) ∧
    Table.ofJson doubledSchema = .ok doubledTable ∧
    commandText doubledTable ["0x0x51"] = Text.ofString "0x0x51: unknown command\n" ∧
    unknownCommands doubledTable ["0x0x51"] = 1 := by
  refine ⟨fun text member => ?_, by decide +kernel, by decide +kernel, by decide +kernel⟩
  have both : Command.opcodeOfText? text = some 0x51 ∧ opcode? text = none := by
    revert text
    decide +kernel
  exact ⟨(Command.opcodeOfJson_ok_iff _ _).mpr ⟨both.1, by decide, by decide⟩, both.2⟩

end Lookup
end ScriptAudit
