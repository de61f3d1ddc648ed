import Mathlib.Data.List.Forall2
import Mathlib.Data.List.TakeWhile
import ScriptAudit.Proofs.Script.References

/-!
What the arguments of an instruction can be. The bounds of a number and the characters of a text
follow from the size of its bytes; which kind of argument there is follows from the parameter. A
variable is never immediate, so every argument of a decoded instruction has a text.
-/
namespace ScriptAudit

theorem exists_partner {α β : Type} {R : α → β → Prop} {left : List α} {right : List β}
    (paired : List.Forall₂ R left right) {one : α} (member : one ∈ left) :
    ∃ other ∈ right, R one other := by
  induction paired with
  | nil => cases member
  | @cons first second _ _ related _ ih =>
      rcases List.mem_cons.mp member with rfl | later
      · exact ⟨second, List.mem_cons_self, related⟩
      · obtain ⟨other, held, partners⟩ := ih later
        exact ⟨other, List.mem_cons_of_mem second held, partners⟩

theorem mapM_ok_iff {ε α β : Type} (f : α → Except ε β) (inputs : List α) (outputs : List β) :
    inputs.mapM f = .ok outputs ↔
      List.Forall₂ (fun input output => f input = .ok output) inputs outputs := by
  induction inputs generalizing outputs with
  | nil =>
      rw [List.mapM_nil, List.forall₂_nil_left_iff]
      constructor
      · intro same
        exact (Except.ok.inj same).symm
      · rintro rfl
        rfl
  | cons input rest ih =>
      rw [List.mapM_cons, Steps.except_ok_iff]
      constructor
      · rintro ⟨output, first, later⟩
        obtain ⟨others, all, last⟩ := Steps.except_ok_iff.mp later
        obtain rfl := Except.ok.inj last
        exact .cons first ((ih others).mp all)
      · intro paired
        cases paired with
        | cons first others =>
            exact ⟨_, first, Steps.except_ok_iff.mpr ⟨_, (ih _).mpr others, rfl⟩⟩

theorem exists_mapM_ok {ε α β : Type} {f : α → Except ε β} {inputs : List α}
    (each : ∀ input ∈ inputs, ∃ output, f input = .ok output) :
    ∃ outputs, inputs.mapM f = .ok outputs := by
  induction inputs with
  | nil => exact ⟨[], rfl⟩
  | cons input rest ih =>
      obtain ⟨output, first⟩ := each input List.mem_cons_self
      obtain ⟨outputs, all⟩ := ih fun other member => each other (List.mem_cons_of_mem input member)
      rw [mapM_ok_iff] at all
      exact ⟨output :: outputs, (mapM_ok_iff f _ _).mpr (.cons first all)⟩

def Text.IsField (most : Nat) (text : Text) : Prop :=
  text.length ≤ most ∧ ∀ point ∈ text, 1 ≤ point.code ∧ point.code ≤ 255

theorem Reader.littleEndian_lt (bytes : Bytes) :
    littleEndian bytes < Nat.pow 256 bytes.length := by
  induction bytes with
  | nil => decide
  | cons byte rest ih =>
      have bound := byte.toNat_lt
      have power : Nat.pow 256 (byte :: rest).length = 256 * Nat.pow 256 rest.length := by
        rw [List.length_cons, Nat.mul_comm]
        rfl
      rw [power, littleEndian]
      omega

namespace Encoding

theorem code_ofByte (byte : UInt8) :
    (CodePoint.char (Char.ofNat byte.toNat)).code = byte.toNat := by
  have bound := byte.toNat_lt
  have valid : byte.toNat.isValidChar := Or.inl (by omega)
  have small : Char.ofNat byte.toNat = Char.ofNatAux byte.toNat valid := dif_pos valid
  rw [CodePoint.code, small]
  rfl

/-- The text of a field ends before a zero byte, so it has none. -/
theorem fieldText_isField (bytes : Bytes) (most : Nat) (short : bytes.length ≤ most) :
    (fieldText bytes).IsField most := by
  constructor
  · have less : (bytes.takeWhile (· != 0)).length ≤ bytes.length :=
      (List.takeWhile_sublist _).length_le
    simp only [fieldText, Text.ofBytes, List.length_map]
    omega
  · intro point member
    obtain ⟨byte, kept, rfl⟩ := List.mem_map.mp member
    have bound := byte.toNat_lt
    have some : byte ≠ 0 := by simpa using List.mem_takeWhile_imp kept
    have positive : byte.toNat ≠ 0 := fun zero => some (UInt8.toNat_inj.mp zero)
    rw [code_ofByte]
    omega

end Encoding

namespace Param

/-- What one tagged operand can be for a parameter. An integer becomes what the parameter takes
it for, and no tag announces a buffer or a list. -/
def AdmitsItem (param : Param) : Operand → Prop
  | .integer value => IsInt32 value ∧ param.type ≠ .pointer ∧ param.type ≠ .model
  | .pointer offset => IsInt32 offset ∧ param.type = .pointer
  | .model id => IsInt32 id ∧ param.type = .model
  | .slot index location =>
      0 ≤ index ∧ index ≤ 65535 ∧ (location = .localSlot ∨ location = .globalSlot)
  | .string text => text.IsField 255
  | .real _ | .array => True
  | .buffer _ | .varargs _ => False

def Admits (param : Param) : Operand → Prop
  | .buffer text => param.type = .buffer ∧ text.IsField 128
  | .varargs items => param.variadic = true ∧ ∀ item ∈ items, param.AdmitsItem item
  | operand => param.variadic = false ∧ param.AdmitsItem operand

def hasValue (param : Param) : Bool := param.type != .endMark || param.variadic

end Param

namespace Operand

/-- What a tag announces is in the bounds of its payload. -/
theorem Tagged.admitted {operand : Operand} {bytes : Bytes} (tagged : operand.Tagged bytes)
    (param : Param) : param.AdmitsItem (param.reinterpret operand) := by
  cases tagged with
  | @mk encoding _ _ payload _ content =>
      cases encoding with
      | int32 | int16 | int8 =>
          obtain ⟨size, rfl⟩ := content
          have range := Reader.signedValue_isInt32 payload (by omega)
          cases type : param.type <;>
            simp [Param.reinterpret, Param.AdmitsItem, type, range]
      | globalSlot | localSlot =>
          obtain ⟨size, rfl⟩ := content
          have bound : Reader.littleEndian payload < 0x10000 := by
            have least := Reader.littleEndian_lt payload
            rw [size] at least
            exact least
          exact ⟨by omega, by omega, by simp⟩
      | single | array =>
          obtain ⟨_, rfl⟩ := content
          trivial
      | shortString | longString =>
          obtain ⟨size, rfl⟩ := content
          exact Encoding.fieldText_isField payload 255 (by omega)
      | sizedString =>
          obtain ⟨size, text, rfl, wide, rfl⟩ := content
          have bound := size.toNat_lt
          exact Encoding.fieldText_isField text 255 (by omega)

end Operand

namespace Param

theorem Items.admitted {param : Param} {items : List Operand} {bytes : Bytes}
    (list : Items param items bytes) : ∀ item ∈ items, param.AdmitsItem item := by
  induction list with
  | stop => simp
  | item tagged _ ih =>
      intro item member
      rcases List.mem_cons.mp member with rfl | later
      · exact tagged.admitted param
      · exact ih item later

theorem admits_of_item {param : Param} {operand : Operand} (one : param.variadic = false)
    (item : param.AdmitsItem operand) : param.Admits operand := by
  cases operand with
  | buffer | varargs => exact item.elim
  | _ => exact ⟨one, item⟩

/-- A parameter has one value, which it admits, or none. -/
theorem Written.admitted {param : Param} {arg : Option Operand} {bytes : Bytes}
    (written : Written param arg bytes) :
    (param.hasValue = true ∧ ∃ operand, arg = some operand ∧ param.Admits operand) ∨
      (param.hasValue = false ∧ arg = none) := by
  cases written with
  | buffer long wide =>
      refine Or.inl ⟨by simp [hasValue, long], _, rfl, long, ?_⟩
      exact Encoding.fieldText_isField bytes 128 (by omega)
  | varargs _ many list => exact Or.inl ⟨by simp [hasValue, many], _, rfl, many, list.admitted⟩
  | endMark mark one => exact Or.inr ⟨by simp [hasValue, mark, one], rfl⟩
  | single _ notEnd one tagged =>
      exact Or.inl ⟨by simp [hasValue, notEnd], _, rfl, admits_of_item one (tagged.admitted param)⟩

end Param

namespace Instruction

/-- The arguments are those of the parameters that have a value, in their order. -/
theorem Arguments.admitted {params : List Param} {args : List Operand} {bytes : Bytes}
    (written : Arguments params args bytes) :
    List.Forall₂ Param.Admits (params.filter Param.hasValue) args := by
  induction written with
  | nil => exact .nil
  | cons first _ ih =>
      rcases first.admitted with ⟨valued, operand, rfl, admits⟩ | ⟨bare, rfl⟩
      · rw [List.filter_cons_of_pos valued]
        exact .cons admits ih
      · rw [List.filter_cons_of_neg (by simp [bare])]
        exact ih

theorem decode_admitted {table : Table} {data : Bytes} {offset : Int} {instruction : Instruction}
    (decoded : decode table data offset = .ok instruction) :
    ∃ command ∈ table.commands, command.opcode = instruction.opcode ∧
      command.name = instruction.name ∧
      List.Forall₂ Param.Admits (command.params.filter Param.hasValue) instruction.args := by
  obtain ⟨_, _, written, _⟩ := (decode_ok_iff _ _ _ _).mp decoded
  cases written with
  | mk _ known _ arguments => exact ⟨_, known, rfl, rfl, arguments.admitted⟩

end Instruction

namespace Operand

theorem renderAll_eq_mapM (items : List Operand) : renderAll items = items.mapM render := by
  induction items with
  | nil =>
      rw [renderAll, List.mapM_nil]
      rfl
  | cons item rest ih => rw [renderAll, ih, List.mapM_cons]

theorem renderAll_ok {items : List Operand}
    (each : ∀ item ∈ items, ∃ text, item.render = .ok text) :
    ∃ texts, renderAll items = .ok texts := by
  rw [renderAll_eq_mapM]
  exact exists_mapM_ok each

end Operand

namespace Param

theorem AdmitsItem.render_ok {param : Param} {operand : Operand}
    (item : param.AdmitsItem operand) : ∃ text, operand.render = .ok text := by
  cases operand with
  | slot index location =>
      rcases item.2.2 with rfl | rfl <;> exact ⟨_, rfl⟩
  | buffer | varargs => exact item.elim
  | _ => exact ⟨_, by rw [Operand.render]⟩

/-- Only an immediate variable has no text, and no parameter admits one. -/
theorem Admits.render_ok {param : Param} {operand : Operand} (admits : param.Admits operand) :
    ∃ text, operand.render = .ok text := by
  cases operand with
  | buffer => exact ⟨_, by rw [Operand.render]⟩
  | varargs items =>
      obtain ⟨texts, all⟩ :=
        Operand.renderAll_ok fun item member => (admits.2 item member).render_ok
      exact ⟨_, by rw [Operand.render, all]; rfl⟩
  | _ => exact AdmitsItem.render_ok admits.2

end Param

namespace Instruction

theorem format_ok {instruction : Instruction} {params : List Param}
    (admitted : List.Forall₂ Param.Admits params instruction.args) :
    ∃ line, instruction.format = .ok line := by
  have each : ∀ arg ∈ instruction.args, ∃ text, arg.render = .ok text := by
    intro arg member
    obtain ⟨param, _, admits⟩ := exists_partner admitted.flip member
    exact Param.Admits.render_ok admits
  obtain ⟨texts, all⟩ := Operand.renderAll_ok each
  exact ⟨_, by rw [format, all]; rfl⟩

end Instruction

end ScriptAudit
