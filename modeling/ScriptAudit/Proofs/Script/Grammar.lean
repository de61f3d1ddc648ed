import ScriptAudit.Proofs.Script.Recognition
import ScriptAudit.Script.Cursor

/-!
The written forms of operands, of arguments and of instructions, and the fact that their
readers recognize exactly these forms. A form is given by the sizes of its pieces; none of
them mentions a reader. An instruction is an opcode word and the written arguments of its
command in order, so where it ends is decided by its own bytes alone.
-/
namespace ScriptAudit

namespace Encoding

def tags : Encoding → List UInt8
  | int32 => [0x01]
  | int16 => [0x05]
  | int8 => [0x04]
  | single => [0x06]
  | globalSlot => [0x02, 0x0A, 0x10]
  | localSlot => [0x03, 0x0B, 0x11]
  | array => [0x07, 0x08, 0x0C, 0x0D, 0x12, 0x13]
  | shortString => [0x09]
  | longString => [0x0F]
  | sizedString => [0x0E]

/-- The payloads of an encoding. All are of a fixed size, but for a string behind its size. -/
def Payload : Encoding → Operand → Bytes → Prop
  | int32, operand, bytes => bytes.length = 4 ∧ operand = .integer (Reader.signedValue bytes)
  | int16, operand, bytes => bytes.length = 2 ∧ operand = .integer (Reader.signedValue bytes)
  | int8, operand, bytes => bytes.length = 1 ∧ operand = .integer (Reader.signedValue bytes)
  | single, operand, bytes =>
      bytes.length = 4 ∧ operand = .real (.ofSingle (Reader.littleEndian bytes))
  | globalSlot, operand, bytes =>
      bytes.length = 2 ∧ operand = .slot (Reader.littleEndian bytes) .globalSlot
  | localSlot, operand, bytes =>
      bytes.length = 2 ∧ operand = .slot (Reader.littleEndian bytes) .localSlot
  | array, operand, bytes => bytes.length = 6 ∧ operand = .array
  | shortString, operand, bytes => bytes.length = 8 ∧ operand = .string (fieldText bytes)
  | longString, operand, bytes => bytes.length = 16 ∧ operand = .string (fieldText bytes)
  | sizedString, operand, bytes => ∃ (size : UInt8) (text : Bytes),
      bytes = size :: text ∧ text.length = size.toNat ∧ operand = .string (fieldText text)

theorem ofTag?_eq_some_iff (tag : UInt8) (encoding : Encoding) :
    ofTag? tag.toNat = some encoding ↔ tag ∈ encoding.tags := by
  constructor
  · intro found
    unfold ofTag? at found
    split at found
    case h_20 => cases found
    all_goals
      cases found
      simp [tags, ← UInt8.toNat_inj]
      omega
  · intro listed
    cases encoding <;> simp only [tags, List.mem_cons, List.not_mem_nil, or_false] at listed
    all_goals rcases listed with rfl | rfl | rfl | rfl | rfl | rfl <;> rfl

theorem zero_not_tag (encoding : Encoding) : 0 ∉ encoding.tags := by
  cases encoding <;> decide

theorem sizedString_recognizes : sizedString.payload.Recognizes sizedString.Payload := by
  refine ((Reader.unsigned_recognizes 1).bind fun size =>
    (Reader.take_recognizes size).fixed fun text => Operand.string (fieldText text)).congr ?_
  intro operand bytes
  constructor
  · rintro ⟨_, front, back, rfl, ⟨one, rfl⟩, wide, rfl⟩
    obtain ⟨size, rfl⟩ := List.length_eq_one_iff.mp one
    exact ⟨size, back, rfl, by simpa [Reader.littleEndian] using wide, rfl⟩
  · rintro ⟨size, text, rfl, wide, rfl⟩
    exact ⟨size.toNat, [size], text, rfl, ⟨rfl, by simp [Reader.littleEndian]⟩, wide, rfl⟩

theorem payload_recognizes (encoding : Encoding) :
    encoding.payload.Recognizes encoding.Payload := by
  cases encoding with
  | int32 => exact (Reader.signed_recognizes 4).fixed Operand.integer
  | int16 => exact (Reader.signed_recognizes 2).fixed Operand.integer
  | int8 => exact (Reader.signed_recognizes 1).fixed Operand.integer
  | single =>
      exact (Reader.unsigned_recognizes 4).fixed fun bits => Operand.real (.ofSingle bits)
  | globalSlot =>
      exact (Reader.unsigned_recognizes 2).fixed fun index => Operand.slot index .globalSlot
  | localSlot =>
      exact (Reader.unsigned_recognizes 2).fixed fun index => Operand.slot index .localSlot
  | array => exact (Reader.take_recognizes 6).fixed fun _ => Operand.array
  | shortString =>
      exact (Reader.take_recognizes 8).fixed fun text => Operand.string (fieldText text)
  | longString =>
      exact (Reader.take_recognizes 16).fixed fun text => Operand.string (fieldText text)
  | sizedString => exact sizedString_recognizes

end Encoding

namespace Operand

inductive Tagged : Operand → Bytes → Prop where
  | mk {encoding : Encoding} {operand : Operand} {tag : UInt8} {payload : Bytes} :
      tag ∈ encoding.tags → encoding.Payload operand payload → Tagged operand (tag :: payload)

theorem payload_recognizes (tag : UInt8) :
    (payload tag.toNat).Recognizes fun operand bytes => Tagged operand (tag :: bytes) := by
  unfold payload
  cases found : Encoding.ofTag? tag.toNat with
  | none =>
      apply (Reader.Recognizes.failure _).congr
      intro operand bytes
      refine ⟨False.elim, ?_⟩
      rintro ⟨listed, _⟩
      rw [(Encoding.ofTag?_eq_some_iff tag _).mpr listed] at found
      cases found
  | some encoding =>
      apply encoding.payload_recognizes.congr
      intro operand bytes
      constructor
      · exact Tagged.mk ((Encoding.ofTag?_eq_some_iff tag encoding).mp found)
      · rintro ⟨listed, content⟩
        rw [(Encoding.ofTag?_eq_some_iff tag _).mpr listed] at found
        cases found
        exact content

theorem read_recognizes : read.Recognizes Tagged := by
  apply (Reader.tag_bind_recognizes payload_recognizes).congr
  intro operand bytes
  constructor
  · rintro ⟨tag, payload, rfl, tagged⟩
    exact tagged
  · intro tagged
    cases tagged with
    | mk listed content => exact ⟨_, _, rfl, Tagged.mk listed content⟩

end Operand

namespace Param

inductive Items (param : Param) : List Operand → Bytes → Prop where
  | stop : Items param [] [0x00]
  | item {operand : Operand} {items : List Operand} {front back : Bytes} :
      operand.Tagged front → Items param items back →
      Items param (param.reinterpret operand :: items) (front ++ back)

/-- The bytes of an argument, and its value. A buffer goes before a variadic list, and a
variadic list before an end mark, which has no value. -/
inductive Written (param : Param) : Option Operand → Bytes → Prop where
  | buffer {bytes : Bytes} : param.type = .buffer → bytes.length = 128 →
      Written param (some (.buffer (Encoding.fieldText bytes))) bytes
  | varargs {items : List Operand} {bytes : Bytes} : param.type ≠ .buffer →
      param.variadic = true → Items param items bytes →
      Written param (some (.varargs items)) bytes
  | endMark : param.type = .endMark → param.variadic = false → Written param none [0x00]
  | single {operand : Operand} {bytes : Bytes} : param.type ≠ .buffer →
      param.type ≠ .endMark → param.variadic = false → operand.Tagged bytes →
      Written param (some (param.reinterpret operand)) bytes

theorem items_length {param : Param} {items : List Operand} {bytes : Bytes}
    (list : Items param items bytes) : items.length < bytes.length := by
  induction list with
  | stop => decide
  | item tagged _ ih =>
      cases tagged
      simp
      omega

theorem readItem_recognizes (param : Param) (fuel : Nat) (tag : UInt8)
    (more : (readItems param fuel).Recognizes fun items bytes =>
      Items param items bytes ∧ items.length < fuel) :
    (if (tag.toNat : Int) = 0 then return [] else do
      let item ← Operand.payload tag.toNat
      return param.reinterpret item :: (← readItems param fuel) :
        Reader (List Operand)).Recognizes fun items bytes =>
      Items param items (tag :: bytes) ∧ items.length < fuel + 1 := by
  -- No operand has tag zero, so the tag alone tells the end of the list from an item.
  by_cases last : tag = 0
  · subst last
    apply (Reader.Recognizes.nothing []).congr
    intro items bytes
    constructor
    · rintro ⟨rfl, rfl⟩
      exact ⟨Items.stop, Nat.succ_pos fuel⟩
    · rintro ⟨list, _⟩
      generalize whole : (0 : UInt8) :: bytes = input at list
      cases list with
      | stop => simpa using whole
      | item tagged _ =>
          cases tagged with
          | mk listed _ =>
              cases whole
              exact (Encoding.zero_not_tag _ listed).elim
  · have other : (tag.toNat : Int) ≠ 0 := by
      intro same
      exact last (UInt8.toNat_inj.mp (by simpa using same))
    simp only [other, ↓reduceIte]
    refine ((Operand.payload_recognizes tag).bind fun item =>
      more.map (param.reinterpret item :: ·)).congr ?_
    intro items bytes
    constructor
    · rintro ⟨operand, front, back, rfl, tagged, rest, ⟨list, short⟩, rfl⟩
      exact ⟨Items.item tagged list, by simpa using short⟩
    · rintro ⟨list, short⟩
      generalize whole : tag :: bytes = input at list
      cases list with
      | stop =>
          cases whole
          exact (last rfl).elim
      | item tagged list =>
          cases tagged with
          | mk listed content =>
              cases whole
              exact ⟨_, _, _, rfl, Operand.Tagged.mk listed content, _,
                ⟨list, by simpa using short⟩, rfl⟩

theorem readItems_recognizes (param : Param) (fuel : Nat) :
    (readItems param fuel).Recognizes fun items bytes =>
      Items param items bytes ∧ items.length < fuel := by
  induction fuel with
  | zero =>
      apply (Reader.Recognizes.failure _).congr
      intro items bytes
      simp
  | succ fuel ih =>
      apply (Reader.tag_bind_recognizes (readItem_recognizes param fuel · ih)).congr
      intro items bytes
      constructor
      · rintro ⟨tag, back, rfl, list⟩
        exact list
      · intro list
        cases bytes with
        | nil => exact (Nat.not_lt_zero _ (items_length list.1)).elim
        | cons tag back => exact ⟨tag, back, rfl, list⟩

theorem readVarargs_apply (param : Param) (input : Bytes) :
    readVarargs param input =
      (do return .varargs (← readItems param input.length) : Reader Operand) input := rfl

/-- As many turns as there are bytes are enough for every list. -/
theorem readVarargs_recognizes (param : Param) :
    (readVarargs param).Recognizes fun operand bytes =>
      ∃ items, operand = .varargs items ∧ Items param items bytes := by
  constructor
  · rintro operand bytes rest ⟨items, rfl, list⟩
    have enough : items.length < (bytes ++ rest).length := by
      have short := items_length list
      simp only [List.length_append]
      omega
    have all := (readItems_recognizes param (bytes ++ rest).length).complete items bytes rest
      ⟨list, enough⟩
    rw [readVarargs_apply, Reader.bind_of_ok all]
    rfl
  · intro operand input rest read
    rw [readVarargs_apply, Steps.bind_ok_iff] at read
    obtain ⟨items, middle, all, last⟩ := read
    cases last
    obtain ⟨bytes, rfl, list, _⟩ := (readItems_recognizes param _).sound items input rest all
    exact ⟨bytes, rfl, items, rfl, list⟩

theorem readEnd_recognizes : readEnd.Recognizes fun _ bytes => bytes = [0x00] := by
  constructor
  · rintro ⟨⟩ bytes rest rfl
    rfl
  · intro mark input rest read
    obtain ⟨value, middle, readTag, last⟩ := Steps.bind_ok_iff.mp read
    obtain ⟨_, rfl, tag, rfl, rfl⟩ := Reader.tag_recognizes.sound value input middle readTag
    by_cases zero : (tag.toNat : Int) = 0
    · rw [if_pos zero] at last
      have same : tag = 0 := UInt8.toNat_inj.mp (by simpa using zero)
      cases last
      exact ⟨[tag], rfl, by rw [same]⟩
    · rw [if_neg zero] at last
      cases last

theorem read_recognizes (param : Param) : param.read.Recognizes param.Written := by
  unfold read
  -- The cases are in the order of the tests, which is what the premises of `Written` exclude.
  by_cases long : param.type = .buffer
  · simp only [long, ↓reduceIte]
    refine ((Reader.take_recognizes bufferSize).map fun text =>
      some (Operand.buffer (Encoding.fieldText text))).congr ?_
    intro operand bytes
    constructor
    · rintro ⟨_, ⟨wide, rfl⟩, rfl⟩
      exact Written.buffer long wide
    · intro written
      cases written <;> simp_all [bufferSize]
  · by_cases many : param.variadic = true
    · simp only [long, many, ↓reduceIte]
      apply ((readVarargs_recognizes param).map some).congr
      intro operand bytes
      constructor
      · rintro ⟨_, ⟨items, rfl, list⟩, rfl⟩
        exact Written.varargs long many list
      · intro written
        cases written <;> simp_all
    · by_cases mark : param.type = .endMark
      · simp only [many, mark, ↓reduceIte]
        apply (readEnd_recognizes.map fun _ => none).congr
        intro operand bytes
        constructor
        · rintro ⟨_, rfl, rfl⟩
          exact Written.endMark mark (by simpa using many)
        · intro written
          cases written <;> simp_all
      · simp only [long, many, mark, ↓reduceIte]
        refine (Operand.read_recognizes.map fun operand =>
          some (param.reinterpret operand)).congr ?_
        intro operand bytes
        constructor
        · rintro ⟨value, tagged, rfl⟩
          exact Written.single long mark (by simpa using many) tagged
        · intro written
          cases written with
          | single _ _ _ tagged => exact ⟨_, tagged, rfl⟩
          | buffer | varargs | endMark => contradiction

end Param

namespace Instruction

inductive Arguments : List Param → List Operand → Bytes → Prop where
  | nil : Arguments [] [] []
  | cons {param : Param} {params : List Param} {arg : Option Operand} {args : List Operand}
      {front back : Bytes} : param.Written arg front → Arguments params args back →
      Arguments (param :: params) (arg.toList ++ args) (front ++ back)

theorem Arguments.of_tagged {param : Param} {operand : Operand} {bytes : Bytes}
    (notBuffer : param.type ≠ .buffer) (notEnd : param.type ≠ .endMark)
    (one : param.variadic = false) (tagged : operand.Tagged bytes) :
    Arguments [param] [param.reinterpret operand] bytes := by
  simpa using Arguments.cons (.single notBuffer notEnd one tagged) .nil

def word (low high : UInt8) : Nat := low.toNat + 256 * high.toNat

/-- The bytes of an instruction. The top bit of the opcode word tells whether the result is
inverted, the others are the opcode of a command. -/
inductive Written (table : Table) : Instruction → Bytes → Prop where
  | mk {command : Command} {low high : UInt8} {args : List Operand} {operands : Bytes}
      (offset : Int) : command ∈ table.commands →
      command.opcode = (word low high &&& 0x7FFF : Nat) →
      Arguments command.params args operands →
      Written table
        { opcode := command.opcode
          name := command.name
          offset
          inverted := (word low high).testBit 15
          args
          size := (low :: high :: operands).length }
        (low :: high :: operands)

theorem readArgs_recognizes (params : List Param) :
    (readArgs params).Recognizes (Arguments params) := by
  induction params with
  | nil =>
      apply (Reader.Recognizes.nothing []).congr
      intro args bytes
      constructor
      · rintro ⟨rfl, rfl⟩
        exact Arguments.nil
      · intro written
        cases written
        exact ⟨rfl, rfl⟩
  | cons param params ih =>
      apply (param.read_recognizes.bind fun arg => ih.map (arg.toList ++ ·)).congr
      intro args bytes
      constructor
      · rintro ⟨arg, front, back, rfl, first, rest, written, rfl⟩
        exact Arguments.cons first written
      · intro written
        cases written with
        | cons first written => exact ⟨_, _, _, rfl, first, _, written, rfl⟩

theorem word_lt (low high : UInt8) : word low high < 0x10000 := by
  have lowBound := low.toNat_lt
  have highBound := high.toNat_lt
  unfold word
  omega

theorem word_recognizes :
    (Reader.unsigned 2).Recognizes fun value bytes =>
      ∃ low high : UInt8, bytes = [low, high] ∧ value = word low high := by
  apply (Reader.unsigned_recognizes 2).congr
  intro value bytes
  constructor
  · rintro ⟨two, rfl⟩
    match bytes, two with
    | [low, high], _ => exact ⟨low, high, rfl, by simp [Reader.littleEndian, word]⟩
  · rintro ⟨low, high, rfl, rfl⟩
    exact ⟨rfl, by simp [Reader.littleEndian, word]⟩

theorem word_opcode (low high : UInt8) :
    ((word low high &&& 0x7FFF : Nat) : Int) = (word low high : Int) % 0x8000 := by
  have masked := Nat.and_two_pow_sub_one_eq_mod (word low high) 15
  simp only [Nat.reducePow, Nat.reduceSub] at masked
  rw [masked]
  omega

theorem word_inverted (low high : UInt8) :
    (word low high).testBit 15 = decide (0x8000 ≤ word low high) := by
  have bound := word_lt low high
  rw [Nat.testBit_eq_decide_div_mod_eq]
  apply decide_eq_decide.mpr
  omega

/-- When an instruction is read, and which: there is a command for the opcode of the first
two bytes, and its arguments are read behind them. -/
theorem readFrom_ok_iff (table : Table) (offset : Int) (input rest : Bytes)
    (instruction : Instruction) :
    readFrom table offset input = .ok instruction rest ↔
      ∃ (low high : UInt8) (behind : Bytes) (command : Command) (args : List Operand),
        input = low :: high :: behind ∧
        table.lookup ((word low high : Int) % 0x8000) = some command ∧
        readArgs command.params behind = .ok args rest ∧
        instruction =
          { opcode := (word low high : Int) % 0x8000
            name := command.name
            offset
            inverted := decide (0x8000 ≤ word low high)
            args
            size := (input.length : Int) - rest.length } := by
  unfold readFrom
  rw [Steps.bind_ok_iff]
  constructor
  · rintro ⟨_, _, start, read⟩
    cases start
    obtain ⟨value, behind, readWord, read⟩ := Steps.bind_ok_iff.mp read
    obtain ⟨_, rfl, low, high, rfl, rfl⟩ := word_recognizes.sound value input behind readWord
    cases found : table.lookup ((word low high : Int) % 0x8000) with
    | none =>
        rw [found] at read
        cases read
    | some command =>
        rw [found] at read
        obtain ⟨args, after, readArguments, last⟩ := Steps.bind_ok_iff.mp read
        cases last
        exact ⟨low, high, behind, command, args, rfl, found, readArguments, rfl⟩
  · rintro ⟨low, high, behind, command, args, rfl, found, readArguments, rfl⟩
    refine ⟨_, _, rfl, ?_⟩
    have readWord : Reader.unsigned 2 (low :: high :: behind) = .ok (word low high) behind :=
      word_recognizes.complete _ [low, high] behind ⟨low, high, rfl, rfl⟩
    rw [Reader.bind_of_ok readWord]
    simp only [found]
    rw [Reader.bind_of_ok readArguments]
    rfl

theorem readFrom_recognizes (table : Table) (offset : Int) :
    (readFrom table offset).Recognizes fun instruction bytes =>
      Written table instruction bytes ∧ instruction.offset = offset := by
  constructor
  · rintro instruction bytes rest ⟨written, rfl⟩
    cases written with
    | @mk command low high args operands offset known named written =>
        have found := (table.lookup_eq_some_iff _ command).mpr ⟨known, rfl⟩
        have readArguments :=
          (readArgs_recognizes command.params).complete args operands rest written
        apply (readFrom_ok_iff _ _ _ _ _).mpr
        refine ⟨low, high, operands ++ rest, command, args, rfl, ?_, readArguments, ?_⟩
        · rw [← word_opcode, ← named]
          exact found
        · rw [word_inverted, ← word_opcode, ← named]
          simp
          omega
  · intro instruction input rest read
    obtain ⟨low, high, behind, command, args, rfl, found, readArguments, rfl⟩ :=
      (readFrom_ok_iff _ _ _ _ _).mp read
    obtain ⟨known, named⟩ := (table.lookup_eq_some_iff _ command).mp found
    obtain ⟨operands, rfl, written⟩ :=
      (readArgs_recognizes command.params).sound args behind rest readArguments
    have form : Written table _ (low :: high :: operands) :=
      Written.mk offset known (named.trans (word_opcode low high).symm) written
    have size : ((low :: high :: (operands ++ rest)).length : Int) - rest.length =
        (low :: high :: operands).length := by
      simp
      omega
    refine ⟨low :: high :: operands, rfl, ?_, rfl⟩
    -- What was read names the opcode and the inversion by arithmetic, the form by bits.
    rw [named, word_inverted] at form
    rw [size]
    exact form

theorem read_ok_iff (table : Table) (offset : Int) (input rest : Bytes)
    (instruction : Instruction) :
    read table offset input = .ok instruction rest ↔
      ∃ bytes, input = bytes ++ rest ∧ Written table instruction bytes ∧
        instruction.offset = offset := by
  have adapted : read table offset input = .ok instruction rest ↔
      readFrom table offset input = .ok instruction rest := by
    unfold read EStateM.adaptExcept
    cases readFrom table offset input <;> simp
  rw [adapted]
  constructor
  · exact (readFrom_recognizes table offset).sound instruction input rest
  · rintro ⟨bytes, rfl, written⟩
    exact (readFrom_recognizes table offset).complete instruction bytes rest written

theorem decode_ok_iff (table : Table) (data : Bytes) (offset : Int)
    (instruction : Instruction) :
    decode table data offset = .ok instruction ↔
      ∃ bytes, bytes <+: data.drop offset.toNat ∧ Written table instruction bytes ∧
        instruction.offset = offset := by
  have results : decode table data offset = .ok instruction ↔
      ∃ rest, read table offset (data.drop offset.toNat) = .ok instruction rest := by
    unfold decode
    cases read table offset (data.drop offset.toNat) <;> simp
  rw [results]
  constructor
  · rintro ⟨rest, done⟩
    obtain ⟨bytes, whole, written⟩ := (read_ok_iff _ _ _ _ _).mp done
    exact ⟨bytes, ⟨rest, whole.symm⟩, written⟩
  · rintro ⟨bytes, ⟨rest, whole⟩, written⟩
    exact ⟨rest, (read_ok_iff _ _ _ _ _).mpr ⟨bytes, whole.symm, written⟩⟩

theorem decode_error_offset {table : Table} {data : Bytes} {offset : Int} {error : DecodeError}
    (failed : decode table data offset = .error error) : error.offset = offset := by
  unfold decode read EStateM.adaptExcept at failed
  cases met : readFrom table offset (data.drop offset.toNat) with
  | ok instruction rest => simp [met] at failed
  | error fault rest =>
      simp only [met] at failed
      cases failed
      rfl

theorem Written.moved {table : Table} {instruction : Instruction} {bytes : Bytes}
    (written : Written table instruction bytes) (offset : Int) :
    Written table { instruction with offset } bytes := by
  cases written with
  | mk _ known named written => exact Written.mk offset known named written

/-- Two instructions that begin the same bytes are one. -/
theorem Written.unique {table : Table} {one other : Instruction} {left right input : Bytes}
    (first : Written table one left) (second : Written table other right)
    (leftPrefix : left <+: input) (rightPrefix : right <+: input) : left = right := by
  obtain ⟨leftRest, leftWhole⟩ := leftPrefix
  obtain ⟨rightRest, rightWhole⟩ := rightPrefix
  have same := leftWhole.trans rightWhole.symm
  -- The offset is no part of the bytes, so both may be read at offset zero.
  exact ((readFrom_recognizes table 0).deterministic
    ⟨first.moved 0, rfl⟩ ⟨second.moved 0, rfl⟩ same).2

theorem Written.size_eq {table : Table} {instruction : Instruction} {bytes : Bytes}
    (written : Written table instruction bytes) : instruction.size = bytes.length := by
  cases written
  rfl

theorem Written.two_le_length {table : Table} {instruction : Instruction} {bytes : Bytes}
    (written : Written table instruction bytes) : 2 ≤ bytes.length := by
  cases written
  simp

/-- An instruction takes at least its opcode word, and no byte past the end. -/
theorem decode_span {table : Table} {data : Bytes} {offset : Int} {instruction : Instruction}
    (decoded : decode table data offset = .ok instruction) :
    2 ≤ instruction.size ∧ offset.toNat + instruction.size ≤ data.length := by
  obtain ⟨bytes, begins, written, _⟩ := (decode_ok_iff _ _ _ _).mp decoded
  have least := written.two_le_length
  have most := begins.length_le
  rw [List.length_drop] at most
  rw [written.size_eq]
  omega

theorem decode_offset {table : Table} {data : Bytes} {offset : Int} {instruction : Instruction}
    (decoded : decode table data offset = .ok instruction) : instruction.offset = offset := by
  obtain ⟨_, _, _, start⟩ := (decode_ok_iff _ _ _ _).mp decoded
  exact start

end Instruction

namespace Cursor

theorem instruction_ok_iff (cursor after : Cursor) (table : Table) (instruction : Instruction) :
    cursor.instruction table = (.ok instruction, after) ↔
      ∃ bytes, bytes <+: cursor.rest ∧ Instruction.Written table instruction bytes ∧
        instruction.offset = cursor.position ∧
        after = ⟨cursor.data, cursor.position + bytes.length⟩ := by
  have results : cursor.instruction table = (.ok instruction, after) ↔
      ∃ rest, Instruction.read table cursor.position cursor.rest = .ok instruction rest ∧
        after = cursor.leaving rest := by
    unfold Cursor.instruction run
    cases Instruction.read table cursor.position cursor.rest with
    | ok value rest =>
        constructor
        · intro same
          cases same
          exact ⟨rest, rfl, rfl⟩
        · rintro ⟨_, same, rfl⟩
          cases same
          rfl
    | error error rest => simp
  rw [results]
  constructor
  · rintro ⟨rest, done, rfl⟩
    obtain ⟨bytes, whole, written, start⟩ := (Instruction.read_ok_iff _ _ _ _ _).mp done
    exact ⟨bytes, ⟨rest, whole.symm⟩, written, start, by simp [leaving, whole]⟩
  · rintro ⟨bytes, ⟨rest, whole⟩, written, start, rfl⟩
    have done := (Instruction.read_ok_iff _ _ _ _ _).mpr ⟨bytes, whole.symm, written, start⟩
    exact ⟨rest, done, by simp [leaving, ← whole]⟩

/-- An instruction is read at an offset exactly where the data goes on with the bytes of one.
These bytes are then no others, they are what the instruction has as its size, and reading
leaves the cursor behind them. -/
theorem instruction_accepts_exactly (table : Table) (data : Bytes) (start : Nat) :
    ((∃ instruction after, Cursor.instruction ⟨data, start⟩ table = (.ok instruction, after)) ↔
      ∃ bytes instruction, bytes <+: data.drop start ∧
        Instruction.Written table instruction bytes) ∧
    ∀ instruction after, Cursor.instruction ⟨data, start⟩ table = (.ok instruction, after) →
      ∃ bytes, bytes <+: data.drop start ∧ Instruction.Written table instruction bytes ∧
        (∀ other form, other <+: data.drop start → Instruction.Written table form other →
          other = bytes) ∧
        instruction.offset = start ∧ instruction.size = bytes.length ∧
        after = ⟨data, start + bytes.length⟩ := by
  constructor
  · constructor
    · rintro ⟨instruction, after, done⟩
      obtain ⟨bytes, begins, written, _⟩ := (instruction_ok_iff _ _ _ _).mp done
      exact ⟨bytes, instruction, begins, written⟩
    · rintro ⟨bytes, instruction, begins, written⟩
      refine ⟨{ instruction with offset := start }, ⟨data, start + bytes.length⟩, ?_⟩
      exact (instruction_ok_iff _ _ _ _).mpr ⟨bytes, begins, written.moved start, rfl, rfl⟩
  · intro instruction after done
    obtain ⟨bytes, begins, written, offset, moved⟩ := (instruction_ok_iff _ _ _ _).mp done
    refine ⟨bytes, begins, written, ?_, offset, written.size_eq, moved⟩
    intro other form otherBegins otherWritten
    exact otherWritten.unique written otherBegins begins

end Cursor

end ScriptAudit
