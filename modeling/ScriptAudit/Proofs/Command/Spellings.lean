import ScriptAudit.Proofs.Command.Opcodes

/-!
Ways to write an opcode. However an opcode is spelled, with spaces and tabs around it, with a mark
or without, with zeros in front and in small letters or capitals, a look-up finds its command, and
so it does with the top bit of the opcode word set. A schema reads the opcode back from each of
these spellings. What the description of a command begins with is one of them.
-/
namespace ScriptAudit

structure Spelling (number : Nat) where
  front : List Char
  mark : List Char
  zeros : Nat
  digits : List Char
  back : List Char
  before : ∀ c ∈ front, c = ' ' ∨ c = '\t'
  marked : mark ∈ [[], ['0', 'x'], ['0', 'X']]
  written : digits.map Char.toLower = Nat.toDigits 16 number
  after : ∀ c ∈ back, c = ' ' ∨ c = '\t'

namespace Spelling

open Text

variable {number : Nat} (spelling : Spelling number)

def numeral : List Char := List.replicate spelling.zeros '0' ++ spelling.digits

def text : Text := ofChars (spelling.front ++ (spelling.mark ++ spelling.numeral) ++ spelling.back)

theorem digitsOnly :
    ∃ values, DigitsOnly 16 spelling.numeral values ∧ valueFrom 16 0 values = number := by
  obtain ⟨values, only, value⟩ := digitsOnly_toDigits number
  rw [← spelling.written, DigitsOnly, List.forall₂_map_left_iff] at only
  simp only [digitBelow?_toLower] at only
  refine ⟨_, List.rel_append (digitsOnly_zeros spelling.zeros) only, ?_⟩
  rw [valueFrom, List.foldl_append]
  have zeros := valueFrom_zeros 16 spelling.zeros
  rw [valueFrom] at zeros value
  rw [zeros, value]

theorem numeral_ne_nil : spelling.numeral ≠ [] := by
  intro empty
  have none : spelling.digits = [] := (List.append_eq_nil_iff.mp empty).2
  have written := spelling.written
  rw [none] at written
  exact Nat.toDigits_ne_nil written.symm

theorem readDigits_numeral : readDigits 16 spelling.numeral = some number := by
  obtain ⟨values, only, value⟩ := spelling.digitsOnly
  rw [only.readDigits spelling.numeral_ne_nil, value]

theorem inNumeral : ∀ c ∈ spelling.numeral, InNumeral 16 c :=
  inNumeral_of_readDigits spelling.readDigits_numeral

theorem hexadecimal?_numeral : hexadecimal? spelling.numeral = some (number : Int) := by
  rw [hexadecimal?_of_inNumeral spelling.inNumeral, spelling.readDigits_numeral]
  rfl

theorem not_marked_numeral (rest : List Char) : ¬ Marked spelling.numeral rest := by
  rintro (same | same)
  · exact not_inNumeral (by decide) (spelling.inNumeral 'x' (by simp [same]))
  · exact not_inNumeral (by decide) (spelling.inNumeral 'X' (by simp [same]))

theorem mark_cases :
    spelling.mark = [] ∨ Marked (spelling.mark ++ spelling.numeral) spelling.numeral := by
  have mark := spelling.marked
  simp only [List.mem_cons, List.not_mem_nil, or_false] at mark
  rcases mark with none | small | capital
  · exact Or.inl none
  · exact Or.inr (Or.inl (by rw [small]; rfl))
  · exact Or.inr (Or.inr (by rw [capital]; rfl))

theorem unblank_core :
    ∀ c ∈ spelling.mark ++ spelling.numeral, isBlank (.char c) = false := by
  have mark : ∀ c ∈ spelling.mark, isBlank (.char c) = false := by
    have marked := spelling.marked
    simp only [List.mem_cons, List.not_mem_nil, or_false] at marked
    rcases marked with same | same | same <;> rw [same]
    all_goals exact List.all_iff_forall_prop.mp (by decide)
  exact List.forall_mem_append.mpr ⟨mark,
    fun c member => (spelling.inNumeral c member).not_blank⟩

theorem trimmed :
    Trimmed spelling.text spelling.front (spelling.mark ++ spelling.numeral) spelling.back := by
  have blank : ∀ c, c = ' ' ∨ c = '\t' → isBlank (.char c) = true := by
    rintro _ (rfl | rfl) <;> decide
  exact ⟨rfl, fun c member => blank c (spelling.before c member),
    fun c member => blank c (spelling.after c member), tight_of_forall spelling.unblank_core⟩

theorem plain : Plain spelling.text := by
  refine spelling.trimmed.plain_iff.mpr ⟨?_, ?_⟩
  · intro point member separates
    obtain ⟨c, inside, rfl⟩ := List.mem_map.mp member
    have apart : ∀ c, c = ' ' ∨ c = '\t' → ¬ IsSeparator (.char c) := by
      unfold IsSeparator
      rintro _ (rfl | rfl) <;> decide
    rw [List.mem_append, List.mem_append] at inside
    rcases inside with (first | middle) | last
    · exact apart c (spelling.before c first) separates
    · have unblank := spelling.unblank_core c middle
      rw [separates.blank] at unblank
      cases unblank
    · exact apart c (spelling.after c last) separates
  · intro rest marked
    rcases spelling.mark_cases with none | mark
    · rw [none] at marked
      exact absurd marked (spelling.not_marked_numeral rest)
    · rw [mark.unique marked]
      exact spelling.inNumeral

theorem opcodeOfText?_text : Command.opcodeOfText? spelling.text = some (number : Int) := by
  have trimmed := spelling.trimmed.trim
  rcases spelling.mark_cases with none | mark
  · rw [none, List.nil_append] at trimmed
    rw [Command.opcodeOfText?_unmarked trimmed spelling.not_marked_numeral,
      spelling.hexadecimal?_numeral]
  · rw [Command.opcodeOfText?_marked trimmed mark, spelling.hexadecimal?_numeral]

theorem opcode?_text : Lookup.opcode? spelling.text = some (number % Command.opcodeLimit) := by
  have read := (Command.hexadecimal?_iff_plain spelling.opcodeOfText?_text number).mpr
    ⟨rfl, spelling.plain⟩
  rw [Lookup.opcode?, read]
  rfl

theorem map_toLower_toDigits (number : Nat) :
    (Nat.toDigits 16 number).map Char.toLower = Nat.toDigits 16 number := by
  have single : ∀ d < 16, (Nat.toDigits 16 d).map Char.toLower = Nat.toDigits 16 d := by decide
  induction number using Nat.base_induction 16 (by decide) with
  | single d small => exact single d small
  | digit number d small positive ih =>
      rw [← Nat.toDigits_append_toDigits (by decide) positive small, List.map_append, ih,
        single d small]

def shown (number : Nat) : Spelling number where
  front := []
  mark := []
  zeros := 4 - (Nat.toDigits 16 number).length
  digits := Nat.toDigits 16 number
  back := []
  before := List.forall_mem_nil _
  marked := List.mem_cons_self
  written := map_toLower_toDigits number
  after := List.forall_mem_nil _

theorem shown_text (number : Nat) : (shown number).text = Text.ofString (Text.hex 4 number) := by
  have positive : ¬ ((number : Int) < 0) := Int.not_lt.mpr (Int.natCast_nonneg number)
  simp [text, numeral, shown, Text.hex, positive, Text.ofString]

theorem length_shown {number : Nat} (small : number < 0x10000) :
    (shown number).text.length = 4 := by
  have short : (Nat.toDigits 16 number).length ≤ 4 :=
    (Nat.length_toDigits_le_iff (by decide) (by decide)).mpr small
  simp only [text, numeral, shown, Text.ofChars, List.length_map, List.nil_append,
    List.append_nil, List.length_append, List.length_replicate]
  omega

end Spelling

namespace Lookup

theorem command?_spelling {table : Table} {command : Command} {number : Nat}
    (range : 0 ≤ command.opcode ∧ command.opcode < Command.opcodeLimit)
    (member : command ∈ table.commands)
    (either : (number : Int) = command.opcode ∨ (number : Int) = command.opcode + 0x8000)
    (spelling : Spelling number) (unnamed : ∀ other ∈ table.commands, other.name ≠ spelling.text) :
    command? table spelling.text = some command := by
  have masked : (number : Int) % Command.opcodeLimit = command.opcode := by
    rw [Command.opcodeLimit] at range ⊢
    omega
  rw [command?_of_unnamed unnamed, spelling.opcode?_text, masked]
  exact (table.lookup_eq_some_iff _ command).mpr ⟨member, rfl⟩

theorem commandText_of_found {table : Table} {token : Text} {command : Command}
    (found : command? table token = some command) :
    commandText table [token] = command.describe ++ [Text.lineFeed] ∧
      unknownCommands table [token] = 0 := by
  simp [commandText, unknownCommands, commandLine, found, Text.ofLines]

/-- Each spelling of an opcode, with or without the top bit of the opcode word, leads to its
command, and a schema reads the opcode back from it. The opcode that a description begins with is
such a spelling, so it leads back to the command that is described. -/
theorem spellings_lead_back {json : Json} {table : Table} {command : Command}
    (built : Table.ofJson json = .ok table) (member : command ∈ table.commands) :
    (∀ number : Nat, (number : Int) = command.opcode ∨ (number : Int) = command.opcode + 0x8000 →
      ∀ spelling : Spelling number, (∀ other ∈ table.commands, other.name ≠ spelling.text) →
        commandText table [spelling.text] = command.describe ++ [Text.lineFeed] ∧
          unknownCommands table [spelling.text] = 0) ∧
    (∀ number : Nat, (number : Int) = command.opcode → ∀ spelling : Spelling number,
      Command.opcodeOfJson (.string spelling.text) = .ok command.opcode) ∧
    ∃ (number : Nat) (shown : Spelling number), (number : Int) = command.opcode ∧
      shown.text.length = 4 ∧ shown.text ++ Text.ofString " " <+: command.describe ∧
      ((∀ other ∈ table.commands, other.name ≠ shown.text) →
        commandText table [shown.text] = command.describe ++ [Text.lineFeed] ∧
          unknownCommands table [shown.text] = 0) := by
  have range := Table.opcode_range built command member
  obtain ⟨number, same⟩ := Int.eq_ofNat_of_zero_le range.1
  refine ⟨?_, ?_, number, .shown number, same.symm, ?_, ?_, ?_⟩
  · intro number either spelling unnamed
    exact commandText_of_found (command?_spelling range member either spelling unnamed)
  · intro number same spelling
    rw [← same] at range ⊢
    exact (Command.opcodeOfJson_ok_iff _ _).mpr ⟨spelling.opcodeOfText?_text, range⟩
  · rw [same, Command.opcodeLimit] at range
    exact Spelling.length_shown (by omega)
  · rw [Spelling.shown_text, ← same, Command.describe]
    simp only [List.append_assoc, List.prefix_append_right_inj, List.prefix_append]
  · exact fun unnamed =>
      commandText_of_found (command?_spelling range member (Or.inl same.symm) _ unnamed)

def topBitSpelling : Spelling 0x80D6 where
  front := ['\t', ' ']
  mark := ['0', 'X']
  zeros := 2
  digits := ['8', '0', 'D', '6']
  back := [' ']
  before := List.all_iff_forall_prop.mp (by decide)
  marked := by decide
  written := by decide
  after := List.all_iff_forall_prop.mp (by decide)

theorem topBitSpelling_leads_back :
    Table.ofJson Table.twinSchema = .ok Table.twinTable ∧
      topBitSpelling.text = Text.ofString "\t 0X0080D6 " ∧
      commandText Table.twinTable [topBitSpelling.text] = Text.ofString "00d6 if()?\n" := by
  have built : Table.ofJson Table.twinSchema = .ok Table.twinTable := by decide +kernel
  have member : { opcode := 0xD6, name := "if", returns := true } ∈ Table.twinTable.commands := by
    decide
  have unnamed : ∀ other ∈ Table.twinTable.commands, other.name ≠ topBitSpelling.text := by
    decide
  obtain ⟨leads, _, _⟩ := spellings_lead_back built member
  refine ⟨built, by decide, (leads 0x80D6 (Or.inr rfl) topBitSpelling unnamed).1.trans ?_⟩
  decide +kernel

end Lookup
end ScriptAudit
