import ScriptAudit.Proofs.Steps
import ScriptAudit.Script.Instruction

/-!
Line feeds in the texts of instructions and of faults. Numbers are written with digits, signs and
points, and all else that a text is made of is fixed, except for the names of commands and the
strings and buffers among the operands. So the text of an instruction has a line feed exactly if
its name or one of these has.
-/
namespace ScriptAudit

namespace Text

def OneLine (text : Text) : Prop := lineFeed ∉ text

instance (text : Text) : Decidable (OneLine text) := inferInstanceAs (Decidable (lineFeed ∉ text))

theorem oneLine_append (front back : Text) :
    OneLine (front ++ back) ↔ OneLine front ∧ OneLine back := by
  simp [OneLine]

theorem ofString_append (front back : String) :
    ofString (front ++ back) = ofString front ++ ofString back := by
  simp [ofString, ofChars]

theorem oneLine_ofString (text : String) : OneLine (ofString text) ↔ '\n' ∉ text.toList := by
  simp [OneLine, ofString, ofChars, lineFeed]

theorem oneLine_join {separator : Text} (plain : OneLine separator) (parts : List Text) :
    OneLine (join separator parts) ↔ ∀ part ∈ parts, OneLine part := by
  induction parts with
  | nil => simp [join, OneLine]
  | cons part rest ih =>
      cases rest with
      | nil => simp [join]
      | cons second others =>
          have step : join separator (part :: second :: others) =
              part ++ separator ++ join separator (second :: others) :=
            List.intercalate_cons_cons
          rw [step, oneLine_append, oneLine_append, ih, List.forall_mem_cons]
          simp [plain]

theorem not_mem_toDigits {c : Char} (plain : ∀ digit : Nat, c ≠ digit.digitChar) (base n : Nat)
    (proper : 1 < base) : c ∉ Nat.toDigits base n := by
  induction n using Nat.strongRecOn with
  | ind n ih =>
      rw [Nat.toDigits_eq_if proper]
      split
      · simp [plain]
      · have less : n / base < n := Nat.div_lt_self (by omega) proper
        simp [plain, ih _ less]

theorem newline_not_mem_toDigits (base n : Nat) (proper : 1 < base) :
    '\n' ∉ Nat.toDigits base n :=
  not_mem_toDigits (fun _ => (Nat.digitChar_ne '\n' rfl).symm) base n proper

theorem not_mem_hex {c : Char} (plain : ∀ digit : Nat, c ≠ digit.digitChar) (unsigned : c ≠ '-')
    (width : Nat) (n : Int) : c ∉ (hex width n).toList := by
  have digits := not_mem_toDigits plain 16 n.natAbs (by decide)
  have zero : c ≠ '0' := plain 0
  unfold hex
  split <;> simp [digits, zero, unsigned]

theorem hex_oneLine (width : Nat) (n : Int) : OneLine (hex width n) := by
  rw [oneLine_ofString]
  exact not_mem_hex (fun _ => (Nat.digitChar_ne '\n' rfl).symm) (by decide) width n

theorem nat_oneLine (n : Nat) : OneLine (toString n) := by
  rw [oneLine_ofString, Nat.toString_eq_ofList_toDigits, String.toList_ofList]
  exact newline_not_mem_toDigits 10 n (by decide)

theorem int_oneLine (n : Int) : OneLine (toString n) := by
  have digits (m : Nat) := newline_not_mem_toDigits 10 m (by decide)
  rw [oneLine_ofString, Int.toString_eq_repr, Int.repr_eq_if]
  split <;> simp [digits]

end Text

namespace Decimal

theorem newline_not_mem_digits (n : Nat) : '\n' ∉ digits n :=
  Text.newline_not_mem_toDigits 10 n (by decide)

theorem newline_not_mem_zeros (n : Nat) : '\n' ∉ zeros n := by
  simp [zeros]

theorem newline_not_mem_positional {ds : List Char} (plain : '\n' ∉ ds) (point : Int) :
    '\n' ∉ positional ds point := by
  have before : '\n' ∉ ds.take point.toNat := fun member => plain (List.mem_of_mem_take member)
  have after : '\n' ∉ ds.drop point.toNat := fun member => plain (List.mem_of_mem_drop member)
  unfold positional
  split
  · simp [newline_not_mem_zeros, plain]
  · split
    · simp [newline_not_mem_zeros, plain]
    · simp [before, after]

theorem newline_not_mem_exponentMark (exponent : Int) : '\n' ∉ exponentMark exponent := by
  unfold exponentMark
  split <;> simp [newline_not_mem_zeros, newline_not_mem_digits]

theorem newline_not_mem_scientific {ds : List Char} (plain : '\n' ∉ ds) (exponent : Int) :
    '\n' ∉ scientific ds exponent := by
  have mark := newline_not_mem_exponentMark exponent
  unfold scientific
  split
  · simp
  · simp_all
  · simp_all

theorem newline_not_mem_layout (value : Decimal) : '\n' ∉ value.layout := by
  have plain := newline_not_mem_digits value.coefficient
  simp only [layout]
  split
  · exact newline_not_mem_positional plain _
  · exact newline_not_mem_scientific plain _

end Decimal

theorem Binary64.text_oneLine (x : Binary64) : Text.OneLine x.text := by
  have magnitude : '\n' ∉ (if x.isInfinite then ['i', 'n', 'f']
      else if x.isZero then ['0', '.', '0'] else (Decimal.shortest x).layout) := by
    split
    · decide
    · split
      · decide
      · exact Decimal.newline_not_mem_layout (Decimal.shortest x)
  rw [Text.oneLine_ofString]
  simp only [text]
  split
  · decide
  · rw [String.toList_ofList]
    split
    · simpa using magnitude
    · exact magnitude

namespace Operand

inductive Holds (text : Text) : Operand → Prop where
  | string : Holds text (.string text)
  | buffer : Holds text (.buffer text)
  | item {item : Operand} {items : List Operand} :
      item ∈ items → Holds text item → Holds text (.varargs items)

def Plain (operand : Operand) : Prop := ∀ text, operand.Holds text → text.OneLine

theorem plain_string (text : Text) : Plain (.string text) ↔ text.OneLine := by
  constructor
  · intro plain
    exact plain text .string
  · rintro plain _ ⟨⟩
    exact plain

theorem plain_buffer (text : Text) : Plain (.buffer text) ↔ text.OneLine := by
  constructor
  · intro plain
    exact plain text .buffer
  · rintro plain _ ⟨⟩
    exact plain

theorem plain_varargs (items : List Operand) :
    Plain (.varargs items) ↔ ∀ item ∈ items, item.Plain := by
  constructor
  · intro plain item member text held
    exact plain text (.item member held)
  · intro plain text held
    cases held with
    | item member inside => exact plain _ member text inside

theorem renderPointer_oneLine (offset : Int) : (renderPointer offset).OneLine := by
  have address : Text.OneLine (Text.ofString ("0x" ++ Text.hex 0 offset.natAbs)) := by
    rw [Text.ofString_append, Text.oneLine_append]
    exact ⟨by decide, Text.hex_oneLine 0 offset.natAbs⟩
  unfold renderPointer
  split
  · exact address
  · rw [Text.oneLine_append, Text.oneLine_append]
    exact ⟨⟨by decide, address⟩, by decide⟩

theorem slotText_oneLine (index : Int) (location : Location) :
    Text.OneLine (location.name ++ "_0x" ++ Text.hex 0 index) := by
  rw [Text.oneLine_append, Text.oneLine_append]
  exact ⟨⟨by cases location <;> decide, by decide⟩, Text.hex_oneLine 0 index⟩

theorem oneLine_leaf {operand : Operand} {text : Text} (plain : text.OneLine)
    (bare : ∀ held, ¬ operand.Holds held) : text.OneLine ↔ operand.Plain :=
  iff_of_true plain fun held holds => (bare held holds).elim

theorem oneLine_quoted (text : Text) : Text.OneLine ("\"" ++ text ++ "\"") ↔ text.OneLine := by
  simp [Text.oneLine_append, Text.oneLine_ofString]

mutual

/-- The text of an operand has no line feed exactly if none of those that it holds has. -/
theorem oneLine_render (operand : Operand) (text : Text) (rendered : operand.render = .ok text) :
    text.OneLine ↔ operand.Plain := by
  cases operand with
  | integer value =>
      cases rendered
      exact oneLine_leaf (Text.int_oneLine value) nofun
  | real value =>
      cases rendered
      exact oneLine_leaf ((Text.oneLine_append _ _).mpr ⟨value.text_oneLine, by decide⟩) nofun
  | string text =>
      cases rendered
      rw [oneLine_quoted, plain_string]
  | model id =>
      cases rendered
      exact oneLine_leaf ((Text.oneLine_append _ _).mpr ⟨by decide, Text.int_oneLine id⟩) nofun
  | pointer offset =>
      cases rendered
      exact oneLine_leaf (renderPointer_oneLine offset) nofun
  | slot index location =>
      cases location with
      | immediate => cases rendered
      | localSlot | globalSlot =>
          cases rendered
          exact oneLine_leaf (slotText_oneLine index _) nofun
  | array =>
      cases rendered
      exact oneLine_leaf (by decide) nofun
  | buffer text =>
      cases rendered
      rw [oneLine_quoted, plain_buffer]
  | varargs items =>
      rw [render] at rendered
      obtain ⟨texts, all, last⟩ := Steps.except_ok_iff.mp rendered
      cases last
      rw [Text.oneLine_join (by decide), plain_varargs]
      exact oneLine_renderAll items texts all

theorem oneLine_renderAll (items : List Operand) (texts : List Text)
    (rendered : renderAll items = .ok texts) :
    (∀ text ∈ texts, text.OneLine) ↔ ∀ item ∈ items, item.Plain := by
  cases items with
  | nil =>
      cases rendered
      simp
  | cons item rest =>
      rw [renderAll] at rendered
      obtain ⟨text, first, later⟩ := Steps.except_ok_iff.mp rendered
      obtain ⟨others, all, last⟩ := Steps.except_ok_iff.mp later
      cases last
      rw [List.forall_mem_cons, List.forall_mem_cons, oneLine_render item text first,
        oneLine_renderAll rest others all]

end

end Operand

namespace Instruction

/-- The line of an instruction is one line exactly if its name and its operands have no line
feed. -/
theorem oneLine_format {instruction : Instruction} {line : Text}
    (formatted : instruction.format = .ok line) :
    line.OneLine ↔ instruction.name.OneLine ∧ ∀ arg ∈ instruction.args, arg.Plain := by
  obtain ⟨texts, all, last⟩ := Steps.except_ok_iff.mp formatted
  obtain rfl := Except.ok.inj last
  have mark : Text.OneLine (Text.ofString (if instruction.inverted then "!" else "")) := by
    cases instruction.inverted <;> decide
  have space : Text.OneLine " " := by decide
  have opening : Text.OneLine "(" := by decide
  have closing : Text.OneLine ")" := by decide
  have comma : Text.OneLine ", " := by decide
  simp only [Text.oneLine_append, Text.oneLine_join comma, Text.hex_oneLine, mark, space, opening,
    closing, true_and, and_true, Operand.oneLine_renderAll _ _ all]

end Instruction

theorem Fault.message_oneLine (fault : Fault) : Text.OneLine fault.message := by
  cases fault with
  | endOfStream wanted got =>
      unfold message
      simp only [Text.ofString_append, Text.oneLine_append, Text.int_oneLine, Text.nat_oneLine]
      decide
  | unknownTag tag | missingEnd tag =>
      unfold message
      simp only [Text.ofString_append, Text.oneLine_append, Text.int_oneLine]
      decide
  | unknownOpcode opcode =>
      unfold message
      simp only [Text.ofString_append, Text.oneLine_append, Text.hex_oneLine]
      decide

end ScriptAudit
