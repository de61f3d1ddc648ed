import ScriptAudit.Proofs.Script.Locality
import ScriptAudit.Proofs.Script.References

/-!
Instructions that are cut off. A read that fails has either come to the end of bytes which are
the beginning of a written form, or it has met a tag that cannot stand where it does. In the
first case bytes can be added so that the form is complete, in the second nothing that is added
makes a difference. So the fault alone tells whether an instruction has only been cut off.
-/
namespace ScriptAudit

namespace Fault

def IsShortage (fault : Fault) : Prop :=
  ∃ (wanted : Int) (got : Nat), fault = .endOfStream wanted got ∧ got < wanted

def IsMisfit (fault : Fault) : Prop := ∃ tag, fault = .unknownTag tag ∨ fault = .missingEnd tag

theorem IsMisfit.not_endOfStream {fault : Fault} (misfit : fault.IsMisfit) (wanted : Int)
    (got : Nat) : fault ≠ .endOfStream wanted got := by
  rintro rfl
  obtain ⟨tag, never | never⟩ := misfit <;> cases never

end Fault

namespace Reader

variable {α β : Type}

/-- A reader that fails has used up its input and asked for more, and then the input begins
bytes of a form, or it has met a tag that does not fit. -/
def Completable (reader : Reader α) (form : α → Bytes → Prop) : Prop :=
  ∀ input fault rest, reader input = .error fault rest →
    (fault.IsShortage ∧ rest = [] ∧ ∃ more value, form value (input ++ more)) ∨ fault.IsMisfit

namespace Completable

theorem carry {fault : Fault} {rest : Bytes} {one other : Prop}
    (stopped : (fault.IsShortage ∧ rest = [] ∧ one) ∨ fault.IsMisfit) (implies : one → other) :
    (fault.IsShortage ∧ rest = [] ∧ other) ∨ fault.IsMisfit :=
  stopped.imp_left fun ⟨short, used, completed⟩ => ⟨short, used, implies completed⟩

theorem nothing (value : α) (form : α → Bytes → Prop) : Completable (pure value) form := by
  intro input fault rest failed
  cases failed

theorem misfit {fault : Fault} (wrong : fault.IsMisfit) (form : α → Bytes → Prop) :
    Completable (throw fault : Reader α) form := by
  intro input met rest failed
  cases failed
  exact Or.inr wrong

theorem weaken {reader : Reader α} {form other : α → Bytes → Prop}
    (completable : Completable reader form)
    (implies : ∀ value bytes, form value bytes → other value bytes) :
    Completable reader other := by
  intro input fault rest failed
  apply carry (completable input fault rest failed)
  rintro ⟨more, value, formed⟩
  exact ⟨more, value, implies value _ formed⟩

theorem map {reader : Reader α} {form : α → Bytes → Prop} {other : β → Bytes → Prop}
    (completable : Completable reader form) (f : α → β)
    (implies : ∀ value bytes, form value bytes → other (f value) bytes) :
    Completable (do return f (← reader)) other := by
  intro input fault rest failed
  have inner := (map_error_iff reader f input rest fault).mp failed
  apply carry (completable input fault rest inner)
  rintro ⟨more, value, formed⟩
  exact ⟨more, f value, implies value _ formed⟩

theorem fixed {reader : Reader α} {size : Nat} {content : Bytes → α}
    (completable : Completable reader fun value bytes =>
      bytes.length = size ∧ value = content bytes) (f : α → β) :
    Completable (do return f (← reader)) fun result bytes =>
      bytes.length = size ∧ result = f (content bytes) := by
  apply completable.map f
  rintro _ bytes ⟨wide, rfl⟩
  exact ⟨wide, rfl⟩

/-- Behind a first part that is complete the second part decides. Where the first part is cut
off, it takes a second part that can be written behind what completes it. -/
theorem bind {reader : Reader α} {form : α → Bytes → Prop} {next : α → Reader β}
    {other : β → Bytes → Prop} (known : Recognizes reader form)
    (first : Completable reader form)
    (second : ∀ value front, form value front →
      Completable (next value) fun result back => other result (front ++ back))
    (goesOn : ∀ value front, form value front → ∃ result back, other result (front ++ back)) :
    Completable (reader >>= next) other := by
  intro input fault rest failed
  rcases (bind_error_iff _ _ _ _ _).mp failed with early | ⟨value, middle, read, late⟩
  · apply carry (first input fault rest early)
    rintro ⟨more, value, formed⟩
    obtain ⟨result, back, whole⟩ := goesOn value (input ++ more) formed
    exact ⟨more ++ back, result, by simpa using whole⟩
  · obtain ⟨front, rfl, formed⟩ := known.sound value input middle read
    apply carry (second value front formed middle fault rest late)
    rintro ⟨more, result, whole⟩
    exact ⟨more, result, by simpa using whole⟩

end Completable

/-- Bytes of a fixed size may be completed by anything. -/
theorem take_completable (size : Nat) :
    Completable (take size) fun value bytes => bytes.length = size ∧ value = bytes := by
  intro input fault rest failed
  unfold take at failed
  by_cases enough : size ≤ input.length
  · rw [if_pos enough] at failed
    cases failed
  · rw [if_neg enough] at failed
    cases failed
    refine Or.inl ⟨⟨size, input.length, rfl, by omega⟩, rfl, ?_⟩
    refine ⟨List.replicate (size - input.length) 0, _, ?_, rfl⟩
    simp only [List.length_append, List.length_replicate]
    omega

theorem unsigned_completable (size : Nat) :
    Completable (unsigned size) fun value bytes =>
      bytes.length = size ∧ value = littleEndian bytes :=
  (take_completable size).fixed littleEndian

theorem signed_completable (size : Nat) :
    Completable (signed size) fun value bytes =>
      bytes.length = size ∧ value = signedValue bytes := by
  apply (unsigned_completable size).map
  rintro _ bytes ⟨rfl, rfl⟩
  exact ⟨rfl, rfl⟩

/-- A tag is cut off only where there is nothing, and then any bytes of the whole complete it. -/
theorem tag_bind_completable {next : Int → Reader β} {other : β → Bytes → Prop}
    (begins : ∃ result bytes, other result bytes)
    (second : ∀ byte : UInt8,
      Completable (next byte.toNat) fun result back => other result (byte :: back)) :
    Completable (tag >>= next) other := by
  intro input fault rest failed
  cases input with
  | nil =>
      obtain ⟨result, bytes, whole⟩ := begins
      cases failed
      exact Or.inl ⟨⟨1, 0, rfl, by decide⟩, rfl, bytes, result, whole⟩
  | cons byte back =>
      have readTag := tag_recognizes.complete byte.toNat [byte] back ⟨byte, rfl, rfl⟩
      rw [← List.singleton_append, bind_of_ok readTag] at failed
      exact second byte back fault rest failed

end Reader

namespace Encoding

/-- A string whose size is missing may be the empty one. -/
theorem sizedString_completable : sizedString.payload.Completable sizedString.Payload := by
  apply (Reader.unsigned_completable 1).bind (Reader.unsigned_recognizes 1)
  · rintro _ front ⟨one, rfl⟩
    obtain ⟨size, rfl⟩ := List.length_eq_one_iff.mp one
    apply (Reader.take_completable _).map
    rintro text _ ⟨wide, rfl⟩
    exact ⟨size, text, rfl, by simpa [Reader.littleEndian] using wide, rfl⟩
  · rintro _ front ⟨one, rfl⟩
    obtain ⟨size, rfl⟩ := List.length_eq_one_iff.mp one
    exact ⟨_, List.replicate size.toNat 0, size, _, rfl, List.length_replicate, rfl⟩

theorem payload_completable (encoding : Encoding) :
    encoding.payload.Completable encoding.Payload := by
  cases encoding with
  | int32 => exact (Reader.signed_completable 4).fixed Operand.integer
  | int16 => exact (Reader.signed_completable 2).fixed Operand.integer
  | int8 => exact (Reader.signed_completable 1).fixed Operand.integer
  | single =>
      exact (Reader.unsigned_completable 4).fixed fun bits => Operand.real (.ofSingle bits)
  | globalSlot =>
      exact (Reader.unsigned_completable 2).fixed fun index => Operand.slot index .globalSlot
  | localSlot =>
      exact (Reader.unsigned_completable 2).fixed fun index => Operand.slot index .localSlot
  | array => exact (Reader.take_completable 6).fixed fun _ => Operand.array
  | shortString =>
      exact (Reader.take_completable 8).fixed fun text => Operand.string (fieldText text)
  | longString =>
      exact (Reader.take_completable 16).fixed fun text => Operand.string (fieldText text)
  | sizedString => exact sizedString_completable

end Encoding

namespace Operand

theorem payload_completable (tag : UInt8) :
    (payload tag.toNat).Completable fun operand bytes => Tagged operand (tag :: bytes) := by
  unfold payload
  cases found : Encoding.ofTag? tag.toNat with
  | none => exact Reader.Completable.misfit ⟨_, Or.inl rfl⟩ _
  | some encoding =>
      apply encoding.payload_completable.weaken
      intro operand bytes content
      exact Tagged.mk ((Encoding.ofTag?_eq_some_iff tag encoding).mp found) content

/-- There is an operand to complete an input in which nothing is left. -/
theorem exists_tagged : ∃ operand bytes, Tagged operand bytes :=
  ⟨_, [0x04, 0x00], @Tagged.mk .int8 _ _ _ (by decide) ⟨rfl, rfl⟩⟩

theorem read_completable : read.Completable Tagged :=
  Reader.tag_bind_completable exists_tagged payload_completable

end Operand

namespace Param

/-- As long as there is fuel for all bytes, a list that is cut off can be ended. -/
theorem readItems_completable (param : Param) (fuel : Nat) (input rest : Bytes) (fault : Fault)
    (enough : input.length ≤ fuel) (failed : readItems param fuel input = .error fault rest) :
    (fault.IsShortage ∧ rest = [] ∧ ∃ more items, Items param items (input ++ more)) ∨
      fault.IsMisfit := by
  have ended : Fault.IsShortage (.endOfStream 1 0) := ⟨1, 0, rfl, by decide⟩
  induction fuel generalizing input with
  | zero =>
      have empty : input = [] := List.length_eq_zero_iff.mp (Nat.le_zero.mp enough)
      subst empty
      cases failed
      exact Or.inl ⟨ended, rfl, [0x00], [], Items.stop⟩
  | succ fuel ih =>
      cases input with
      | nil =>
          cases failed
          exact Or.inl ⟨ended, rfl, [0x00], [], Items.stop⟩
      | cons tag input =>
          rw [readItems_cons] at failed
          by_cases last : (tag.toNat : Int) = 0
          · rw [if_pos last] at failed
            cases failed
          · rw [if_neg last] at failed
            rcases (Reader.bind_error_iff _ _ _ _ _).mp failed with
              early | ⟨item, middle, read, late⟩
            · -- An operand that is cut off is completed, and the list ends behind it.
              apply Reader.Completable.carry
                (Operand.payload_completable tag input fault rest early)
              rintro ⟨more, operand, tagged⟩
              have list := Items.item tagged (Items.stop : Items param [] [0x00])
              exact ⟨more ++ [0x00], _, by simpa using list⟩
            · -- The operand is complete, and the list behind it is cut off.
              obtain ⟨front, rfl, tagged⟩ :=
                (Operand.payload_recognizes tag).sound item input middle read
              have shorter : middle.length ≤ fuel := by
                simp only [List.length_cons, List.length_append] at enough
                omega
              have inner := (Reader.map_error_iff _ _ _ _ _).mp late
              apply Reader.Completable.carry (ih middle shorter inner)
              rintro ⟨more, items, list⟩
              have longer := Items.item tagged list
              exact ⟨more, _, by simpa using longer⟩

theorem readVarargs_completable (param : Param) :
    (readVarargs param).Completable fun operand bytes =>
      ∃ items, operand = .varargs items ∧ Items param items bytes := by
  intro input fault rest failed
  rw [readVarargs_apply] at failed
  have inner := (Reader.map_error_iff _ _ _ _ _).mp failed
  apply Reader.Completable.carry (readItems_completable param _ _ _ _ (Nat.le_refl _) inner)
  rintro ⟨more, items, list⟩
  exact ⟨more, _, items, rfl, list⟩

theorem readEnd_completable : readEnd.Completable fun _ bytes => bytes = [0x00] := by
  apply Reader.tag_bind_completable ⟨(), [0x00], rfl⟩
  intro tag
  by_cases last : (tag.toNat : Int) = 0
  · simp only [last, ↓reduceIte]
    exact Reader.Completable.nothing () _
  · simp only [last, ↓reduceIte]
    exact Reader.Completable.misfit ⟨_, Or.inr rfl⟩ _

theorem read_completable (param : Param) : param.read.Completable param.Written := by
  unfold read
  by_cases long : param.type = .buffer
  · simp only [long, ↓reduceIte]
    apply (Reader.take_completable bufferSize).map
    rintro _ bytes ⟨wide, rfl⟩
    exact Written.buffer long wide
  · by_cases many : param.variadic = true
    · simp only [long, many, ↓reduceIte]
      apply (readVarargs_completable param).map
      rintro _ bytes ⟨items, rfl, list⟩
      exact Written.varargs long many list
    · by_cases mark : param.type = .endMark
      · simp only [many, mark, ↓reduceIte]
        apply readEnd_completable.map
        rintro _ bytes rfl
        exact Written.endMark mark (by simpa using many)
      · simp only [long, many, mark, ↓reduceIte]
        apply Operand.read_completable.map
        intro operand bytes tagged
        exact Written.single long mark (by simpa using many) tagged

end Param

namespace Instruction

/-- Arguments that are cut off are completed, and the arguments behind them can be written. -/
theorem readArgs_completable (params : List Param) :
    (readArgs params).Completable (Arguments params) := by
  induction params with
  | nil => exact Reader.Completable.nothing [] _
  | cons param params ih =>
      apply param.read_completable.bind param.read_recognizes
      · intro arg front written
        apply ih.map
        intro args back arguments
        exact Arguments.cons written arguments
      · intro arg front written
        obtain ⟨args, back, arguments, _⟩ := Arguments.exists_written params
        exact ⟨_, back, Arguments.cons written arguments⟩

theorem readFrom_error_args {table : Table} {offset : Int} {low high : UInt8}
    {behind rest : Bytes} {command : Command} {fault : Fault}
    (found : table.lookup ((word low high : Int) % 0x8000) = some command)
    (failed : readFrom table offset (low :: high :: behind) = .error fault rest) :
    readArgs command.params behind = .error fault rest := by
  have readWord : Reader.unsigned 2 (low :: high :: behind) = .ok (word low high) behind :=
    word_recognizes.complete _ [low, high] behind ⟨low, high, rfl, rfl⟩
  rw [readFrom_error_iff, readBody, Reader.bind_of_ok readWord] at failed
  simpa only [found] using failed

end Instruction

namespace Cursor

theorem instruction_error_iff (cursor after : Cursor) (table : Table) (error : DecodeError) :
    cursor.instruction table = (.error error, after) ↔
      ∃ rest, Instruction.readFrom table cursor.position cursor.rest = .error error.fault rest ∧
        error.offset = cursor.position ∧ after = cursor.leaving rest := by
  unfold Cursor.instruction run Instruction.read EStateM.adaptExcept
  obtain ⟨fault, offset⟩ := error
  cases Instruction.readFrom table cursor.position cursor.rest with
  | ok value rest => simp
  | error met rest =>
      constructor
      · intro same
        cases same
        exact ⟨rest, rfl, rfl, rfl⟩
      · rintro ⟨_, same, rfl, rfl⟩
        cases same
        rfl

section CutOff

variable {table : Table} {data : Bytes} {start : Nat} {low high : UInt8} {behind : Bytes}

theorem length_of_drop (here : data.drop start = low :: high :: behind) :
    data.length = start + 2 + behind.length := by
  have size := congrArg List.length here
  simp only [List.length_drop, List.length_cons] at size
  omega

theorem drop_append_more (here : data.drop start = low :: high :: behind) (more : Bytes) :
    (data ++ more).drop start = low :: high :: (behind ++ more) := by
  have size := length_of_drop here
  rw [List.drop_append_of_le_length (by omega), here]
  rfl

/-- A failure behind a known opcode is either one of bytes that end too early, and then some
data that go on with them are read, or it is there in all data that go on with them. -/
theorem instruction_error_cases (here : data.drop start = low :: high :: behind)
    {command : Command} (known : command ∈ table.commands)
    (named : command.opcode = (Instruction.word low high &&& 0x7FFF : Nat))
    {error : DecodeError} {after : Cursor}
    (failed : Cursor.instruction ⟨data, start⟩ table = (.error error, after)) :
    (error.fault.IsShortage ∧ after = ⟨data, data.length⟩ ∧
      ∃ more instruction stop,
        Cursor.instruction ⟨data ++ more, start⟩ table = (.ok instruction, stop)) ∨
    (error.fault.IsMisfit ∧ ∀ more,
      Cursor.instruction ⟨data ++ more, start⟩ table =
        (.error error, ⟨data ++ more, after.position⟩)) := by
  obtain ⟨rest, read, offset, rfl⟩ := (instruction_error_iff _ _ _ _).mp failed
  have found : table.lookup ((Instruction.word low high : Int) % 0x8000) = some command := by
    rw [← Instruction.word_opcode, ← named]
    exact (table.lookup_eq_some_iff _ command).mpr ⟨known, rfl⟩
  have args : Instruction.readArgs command.params behind = .error error.fault rest := by
    simp only [Cursor.rest, here] at read
    exact Instruction.readFrom_error_args found read
  have inside := length_of_drop here
  rcases Instruction.readArgs_completable _ _ _ _ args with
    ⟨short, rfl, more, values, arguments⟩ | wrong
  · -- The arguments that complete these give an instruction of the longer data.
    have written := Instruction.Written.mk start known named arguments
    have begins : low :: high :: (behind ++ more) <+: Cursor.rest ⟨data ++ more, start⟩ := by
      simp only [Cursor.rest, drop_append_more here, List.prefix_refl]
    refine Or.inl ⟨short, ?_, more, _, _,
      (instruction_ok_iff _ _ _ _).mpr ⟨_, begins, written, rfl, rfl⟩⟩
    simp only [leaving, Cursor.rest, here, mk.injEq, true_and, List.length_cons, List.length_nil]
    omega
  · -- A read that did not run out of bytes depends on those it has used only.
    rcases Instruction.readFrom_decisive table start _ _ _ read with
      ⟨_, wanted, got, ended⟩ | ⟨bytes, whole, always⟩
    · exact (wrong.not_endOfStream wanted got ended).elim
    · refine Or.inr ⟨wrong, fun more => (instruction_error_iff _ _ _ _).mpr ?_⟩
      have longer : Cursor.rest ⟨data ++ more, start⟩ = bytes ++ (rest ++ more) := by
        simp only [Cursor.rest, drop_append_more here]
        simp only [Cursor.rest, here] at whole
        rw [← List.append_assoc, ← whole]
        rfl
      refine ⟨rest ++ more, by rw [longer]; exact always _, offset, ?_⟩
      simp [leaving, longer, whole]

end CutOff

/-- Behind an opcode that the table knows, reading comes to an unexpected end exactly where
some data that go on with these can be read; it has then asked for more than there was and used
up the data. Every other fault is one of a tag, and no data that go on with these are without
it. -/
theorem truncated_iff_completable (table : Table) (data : Bytes) (start : Nat)
    (low high : UInt8) (behind : Bytes) (here : data.drop start = low :: high :: behind)
    (known : ∃ command ∈ table.commands,
      command.opcode = (Instruction.word low high &&& 0x7FFF : Nat))
    (error : DecodeError) (after : Cursor)
    (failed : Cursor.instruction ⟨data, start⟩ table = (.error error, after)) :
    error.offset = start ∧
    ((∃ wanted got, error.fault = .endOfStream wanted got) ↔
      ∃ more instruction stop,
        Cursor.instruction ⟨data ++ more, start⟩ table = (.ok instruction, stop)) ∧
    (∀ wanted got, error.fault = .endOfStream wanted got →
      error.fault.message = "unexpected end of stream (wanted " ++ toString wanted ++
        " byte(s), got " ++ toString got ++ ")" ∧
      got < wanted ∧ after = ⟨data, data.length⟩) ∧
    ((∀ wanted got, error.fault ≠ .endOfStream wanted got) →
      (∃ tag, error.fault = .unknownTag tag ∨ error.fault = .missingEnd tag) ∧
      ∀ more, Cursor.instruction ⟨data ++ more, start⟩ table =
        (.error error, ⟨data ++ more, after.position⟩)) := by
  obtain ⟨command, member, named⟩ := known
  obtain ⟨_, _, offset, _⟩ := (instruction_error_iff _ _ _ _).mp failed
  refine ⟨offset, ?_⟩
  rcases instruction_error_cases here member named failed with
    ⟨⟨wanted, got, ended, less⟩, used, completed⟩ | ⟨wrong, always⟩
  · refine ⟨⟨fun _ => completed, fun _ => ⟨wanted, got, ended⟩⟩, ?_, ?_⟩
    · intro other most same
      rw [ended] at same
      cases same
      exact ⟨by rw [ended]; rfl, less, used⟩
    · intro never
      exact (never wanted got ended).elim
  · refine ⟨⟨?_, ?_⟩, ?_, fun _ => ⟨wrong, always⟩⟩
    · rintro ⟨wanted, got, ended⟩
      exact (wrong.not_endOfStream wanted got ended).elim
    · rintro ⟨more, instruction, stop, done⟩
      cases (always more).symm.trans done
    · intro wanted got ended
      exact (wrong.not_endOfStream wanted got ended).elim

/-- A switch at offset two whose list is cut off inside its second operand, a string. -/
def cutBytes : Bytes := [0x51, 0x00, 0x71, 0x08, 0x04, 0xF8, 0x0E, 0x05, 0x41]

def strayBytes : Bytes := [0x71, 0x08, 0x04, 0xF8, 0x14]

theorem cutBytes_truncated :
    Cursor.instruction ⟨cutBytes, 2⟩ Instruction.listedSwitch =
      (.error ⟨.endOfStream 5 1, 2⟩, ⟨cutBytes, 9⟩) ∧
    (∃ more instruction stop, Cursor.instruction ⟨cutBytes ++ more, 2⟩ Instruction.listedSwitch =
      (.ok instruction, stop)) ∧
    ∀ more, Cursor.instruction ⟨strayBytes ++ more, 0⟩ Instruction.listedSwitch =
      (.error ⟨.unknownTag 0x14, 0⟩, ⟨strayBytes ++ more, 5⟩) := by
  have cut : Cursor.instruction ⟨cutBytes, 2⟩ Instruction.listedSwitch =
      (.error ⟨.endOfStream 5 1, 2⟩, ⟨cutBytes, 9⟩) := rfl
  have stray : Cursor.instruction ⟨strayBytes, 0⟩ Instruction.listedSwitch =
      (.error ⟨.unknownTag 0x14, 0⟩, ⟨strayBytes, 5⟩) := rfl
  have completable := truncated_iff_completable _ cutBytes 2 _ _ _ rfl
    ⟨_, .head _, by decide⟩ _ _ cut
  have stable := truncated_iff_completable _ strayBytes 0 _ _ _ rfl
    ⟨_, .head _, by decide⟩ _ _ stray
  refine ⟨cut, completable.2.1.mp ⟨5, 1, rfl⟩, (stable.2.2.2 ?_).2⟩
  intro wanted got never
  cases never

end Cursor

end ScriptAudit
