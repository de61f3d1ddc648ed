import ScriptAudit.Proofs.Script.Grammar

/-!
Which bytes decide what a read gives. A read that succeeds is decided by the bytes it takes,
as the recognized forms say. A read that fails has either used up its input or found fault
with the bytes it has taken, whatever stands behind them. So inputs of one size that agree on
the bytes that a read takes are read alike, with the same instruction or the same fault.
-/
namespace ScriptAudit

namespace Reader

variable {α β : Type}

/-- A reader that fails has used up its input, or it fails by what it has taken. -/
def Decisive (reader : Reader α) : Prop :=
  ∀ input fault rest, reader input = .error fault rest →
    (rest = [] ∧ ∃ wanted got, fault = .endOfStream wanted got) ∨
      ∃ bytes, input = bytes ++ rest ∧ ∀ other, reader (bytes ++ other) = .error fault other

/-- A sequence fails where its first part does, or where that gives a value with which the
second part fails. -/
theorem bind_error_iff (reader : Reader α) (next : α → Reader β) (input rest : Bytes)
    (fault : Fault) :
    (reader >>= next) input = .error fault rest ↔
      reader input = .error fault rest ∨
        ∃ value middle, reader input = .ok value middle ∧
          next value middle = .error fault rest := by
  change EStateM.bind reader next input = .error fault rest ↔ _
  unfold EStateM.bind
  cases read : reader input with
  | ok value middle =>
      constructor
      · intro follows
        exact Or.inr ⟨value, middle, rfl, follows⟩
      · rintro (never | ⟨_, _, same, follows⟩)
        · cases never
        · cases same
          exact follows
  | error early middle => simp

theorem bind_of_error {reader : Reader α} {next : α → Reader β} {input rest : Bytes}
    {fault : Fault} (failed : reader input = .error fault rest) :
    (reader >>= next) input = .error fault rest :=
  (bind_error_iff reader next input rest fault).mpr (Or.inl failed)

theorem map_error_iff (reader : Reader α) (f : α → β) (input rest : Bytes) (fault : Fault) :
    (do return f (← reader) : Reader β) input = .error fault rest ↔
      reader input = .error fault rest := by
  refine (bind_error_iff _ _ _ _ _).trans (or_iff_left ?_)
  rintro ⟨_, _, _, never⟩
  cases never

namespace Decisive

theorem nothing (value : α) : Decisive (pure value) := by
  intro input fault rest failed
  cases failed

theorem failure (fault : Fault) : Decisive (throw fault : Reader α) := by
  intro input met rest failed
  cases failed
  exact Or.inr ⟨[], rfl, fun _ => rfl⟩

/-- The first part gives its value by its own bytes, so behind it the second part decides. -/
theorem bind {reader : Reader α} {form : α → Bytes → Prop} {next : α → Reader β}
    (known : Recognizes reader form) (first : Decisive reader)
    (second : ∀ value, Decisive (next value)) : Decisive (reader >>= next) := by
  intro input fault rest failed
  rcases (bind_error_iff _ _ _ _ _).mp failed with early | ⟨value, middle, read, late⟩
  · rcases first input fault rest early with ended | ⟨bytes, whole, always⟩
    · exact Or.inl ended
    · exact Or.inr ⟨bytes, whole, fun other => bind_of_error (always other)⟩
  · rcases second value middle fault rest late with ended | ⟨back, rfl, always⟩
    · exact Or.inl ended
    · obtain ⟨front, rfl, formed⟩ := known.sound value input (back ++ rest) read
      refine Or.inr ⟨front ++ back, by simp, ?_⟩
      intro other
      rw [List.append_assoc, bind_of_ok (known.complete value front (back ++ other) formed)]
      exact always other

theorem map {reader : Reader α} {form : α → Bytes → Prop} (known : Recognizes reader form)
    (decisive : Decisive reader) (f : α → β) : Decisive (do return f (← reader)) :=
  bind known decisive fun value => nothing (f value)

/-- Only the number of the bytes behind can matter to a failure. -/
theorem alike {reader : Reader α} (decisive : Decisive reader) {input rest : Bytes}
    {fault : Fault} (failed : reader input = .error fault rest) :
    ∃ bytes, input = bytes ++ rest ∧ ∀ other, other.length = rest.length →
      reader (bytes ++ other) = .error fault other := by
  rcases decisive input fault rest failed with ⟨rfl, _⟩ | ⟨bytes, whole, always⟩
  · refine ⟨input, by simp, ?_⟩
    intro other none
    rw [List.length_eq_zero_iff.mp none, List.append_nil]
    exact failed
  · exact ⟨bytes, whole, fun other _ => always other⟩

end Decisive

theorem take_decisive (size : Nat) : Decisive (take size) := by
  intro input fault rest failed
  unfold take at failed
  split at failed
  · cases failed
  · cases failed
    exact Or.inl ⟨rfl, _, _, rfl⟩

theorem unsigned_decisive (size : Nat) : Decisive (unsigned size) :=
  (take_decisive size).map (take_recognizes size) littleEndian

theorem signed_decisive (size : Nat) : Decisive (signed size) :=
  (unsigned_decisive size).map (unsigned_recognizes size) fun value =>
    Int.bmod value (Nat.pow 256 size)

theorem tag_decisive : Decisive tag :=
  (unsigned_decisive 1).map (unsigned_recognizes 1) fun value => (value : Int)

end Reader

namespace Encoding

theorem payload_decisive (encoding : Encoding) : encoding.payload.Decisive := by
  cases encoding with
  | int32 => exact (Reader.signed_decisive 4).map (Reader.signed_recognizes 4) Operand.integer
  | int16 => exact (Reader.signed_decisive 2).map (Reader.signed_recognizes 2) Operand.integer
  | int8 => exact (Reader.signed_decisive 1).map (Reader.signed_recognizes 1) Operand.integer
  | single =>
      exact (Reader.unsigned_decisive 4).map (Reader.unsigned_recognizes 4) fun bits =>
        Operand.real (.ofSingle bits)
  | globalSlot =>
      exact (Reader.unsigned_decisive 2).map (Reader.unsigned_recognizes 2) fun index =>
        Operand.slot index .globalSlot
  | localSlot =>
      exact (Reader.unsigned_decisive 2).map (Reader.unsigned_recognizes 2) fun index =>
        Operand.slot index .localSlot
  | array =>
      exact (Reader.take_decisive 6).map (Reader.take_recognizes 6) fun _ => Operand.array
  | shortString =>
      exact (Reader.take_decisive 8).map (Reader.take_recognizes 8) fun text =>
        Operand.string (fieldText text)
  | longString =>
      exact (Reader.take_decisive 16).map (Reader.take_recognizes 16) fun text =>
        Operand.string (fieldText text)
  | sizedString =>
      exact (Reader.unsigned_decisive 1).bind (Reader.unsigned_recognizes 1) fun size =>
        (Reader.take_decisive size).map (Reader.take_recognizes size) fun text =>
          Operand.string (fieldText text)

end Encoding

namespace Operand

theorem payload_decisive (tag : Int) : (payload tag).Decisive := by
  unfold payload
  cases Encoding.ofTag? tag with
  | some encoding => exact encoding.payload_decisive
  | none => exact Reader.Decisive.failure _

theorem read_decisive : read.Decisive :=
  Reader.tag_decisive.bind Reader.tag_recognizes payload_decisive

end Operand

namespace Param

def readItem (param : Param) (fuel : Nat) (tag : UInt8) : Reader (List Operand) := do
  let item ← Operand.payload tag.toNat
  return param.reinterpret item :: (← readItems param fuel)

theorem readItems_cons (param : Param) (fuel : Nat) (tag : UInt8) (input : Bytes) :
    readItems param (fuel + 1) (tag :: input) =
      (if (tag.toNat : Int) = 0 then pure [] else readItem param fuel tag :
        Reader (List Operand)) input :=
  Reader.bind_of_ok (Reader.tag_recognizes.complete tag.toNat [tag] input ⟨tag, rfl, rfl⟩)

theorem readItems_of_item {param : Param} {tag : UInt8} {bytes : Bytes} {fault : Fault}
    (more : (tag.toNat : Int) ≠ 0)
    (refused : ∀ other fuel, (bytes ++ other).length ≤ fuel →
      readItem param fuel tag (bytes ++ other) = .error fault other) (other : Bytes) (fuel : Nat)
    (enough : (tag :: bytes ++ other).length ≤ fuel) :
    readItems param fuel (tag :: bytes ++ other) = .error fault other := by
  cases fuel with
  | zero => simp at enough
  | succ fuel =>
      rw [List.cons_append, readItems_cons, if_neg more]
      exact refused other fuel (Nat.le_of_succ_le_succ enough)

/-- As long as there is fuel for all bytes, neither the fuel nor what stands behind the bytes
taken matters to a list that is refused. -/
theorem readItems_refused (param : Param) (fuel : Nat) (input rest : Bytes) (fault : Fault)
    (enough : input.length ≤ fuel) (failed : readItems param fuel input = .error fault rest) :
    (rest = [] ∧ ∃ wanted got, fault = .endOfStream wanted got) ∨
      ∃ bytes, input = bytes ++ rest ∧ ∀ other fuel, (bytes ++ other).length ≤ fuel →
        readItems param fuel (bytes ++ other) = .error fault other := by
  induction fuel generalizing input with
  | zero =>
      have empty : input = [] := List.length_eq_zero_iff.mp (Nat.le_zero.mp enough)
      subst empty
      cases failed
      exact Or.inl ⟨rfl, _, _, rfl⟩
  | succ fuel ih =>
      cases input with
      | nil =>
          cases failed
          exact Or.inl ⟨rfl, _, _, rfl⟩
      | cons tag input =>
          rw [readItems_cons] at failed
          by_cases last : (tag.toNat : Int) = 0
          · rw [if_pos last] at failed
            cases failed
          · rw [if_neg last] at failed
            rcases (Reader.bind_error_iff _ _ _ _ _).mp failed with
              early | ⟨item, middle, read, late⟩
            · -- The operand itself is refused.
              rcases Operand.payload_decisive _ _ _ _ early with ended | ⟨bytes, rfl, always⟩
              · exact Or.inl ended
              · refine Or.inr ⟨tag :: bytes, rfl, readItems_of_item last ?_⟩
                intro other fuel _
                exact Reader.bind_of_error (always other)
            · -- The operand is read by its own bytes, and the list behind it is refused.
              obtain ⟨front, rfl, tagged⟩ :=
                (Operand.payload_recognizes tag).sound item input middle read
              have shorter : middle.length ≤ fuel := by
                simp only [List.length_cons, List.length_append] at enough
                omega
              have inner := (Reader.map_error_iff _ _ _ _ _).mp late
              rcases ih middle shorter inner with ended | ⟨back, rfl, always⟩
              · exact Or.inl ended
              · refine Or.inr ⟨tag :: (front ++ back), by simp, readItems_of_item last ?_⟩
                intro other fuel within
                have readFront := (Operand.payload_recognizes tag).complete item front
                  (back ++ other) tagged
                rw [List.append_assoc, readItem, Reader.bind_of_ok readFront]
                apply (Reader.map_error_iff _ _ _ _ _).mpr
                apply always other fuel
                simp only [List.length_append] at within ⊢
                omega

theorem readVarargs_decisive (param : Param) : (readVarargs param).Decisive := by
  intro input fault rest failed
  rw [readVarargs_apply] at failed
  have inner := (Reader.map_error_iff _ _ _ _ _).mp failed
  rcases readItems_refused param _ _ _ _ (Nat.le_refl _) inner with ended | ⟨bytes, whole, always⟩
  · exact Or.inl ended
  · refine Or.inr ⟨bytes, whole, ?_⟩
    intro other
    rw [readVarargs_apply]
    exact (Reader.map_error_iff _ _ _ _ _).mpr (always other _ (Nat.le_refl _))

theorem readEnd_decisive : readEnd.Decisive := by
  apply Reader.tag_decisive.bind Reader.tag_recognizes
  intro tag
  by_cases last : tag = 0
  · simp only [last, ↓reduceIte]
    exact Reader.Decisive.nothing ()
  · simp only [last, ↓reduceIte]
    exact Reader.Decisive.failure _

theorem read_decisive (param : Param) : param.read.Decisive := by
  unfold read
  split
  · exact (Reader.take_decisive bufferSize).map (Reader.take_recognizes bufferSize) _
  · split
    · exact (readVarargs_decisive param).map (readVarargs_recognizes param) some
    · split
      · exact readEnd_decisive.map readEnd_recognizes fun _ => none
      · exact Operand.read_decisive.map Operand.read_recognizes fun operand =>
          some (param.reinterpret operand)

end Param

namespace Instruction

theorem readArgs_decisive (params : List Param) : (readArgs params).Decisive := by
  induction params with
  | nil => exact Reader.Decisive.nothing []
  | cons param params ih =>
      exact param.read_decisive.bind param.read_recognizes fun arg =>
        ih.map (readArgs_recognizes params) (arg.toList ++ ·)

def readBody (table : Table) : Reader (List Operand) := do
  let word ← Reader.unsigned 2
  match table.lookup (word % 0x8000) with
  | none => throw (.unknownOpcode (word % 0x8000))
  | some command => readArgs command.params

theorem readFrom_error_iff (table : Table) (offset : Int) (input rest : Bytes)
    (fault : Fault) :
    readFrom table offset input = .error fault rest ↔
      readBody table input = .error fault rest := by
  have start : (get : Reader Bytes) input = .ok input input := rfl
  unfold readFrom readBody
  rw [Reader.bind_of_ok start, Reader.bind_error_iff, Reader.bind_error_iff]
  refine or_congr_right (exists_congr fun word => exists_congr fun middle =>
    and_congr_right fun _ => ?_)
  cases table.lookup ((word : Int) % 0x8000) with
  | none =>
      constructor <;> intro failed <;> cases failed <;> rfl
  | some command =>
      -- Behind the arguments nothing fails any more.
      refine (Reader.bind_error_iff _ _ _ _ _).trans (or_iff_left ?_)
      rintro ⟨args, after, _, never⟩
      cases never

theorem readBody_decisive (table : Table) : (readBody table).Decisive := by
  apply (Reader.unsigned_decisive 2).bind (Reader.unsigned_recognizes 2)
  intro word
  cases table.lookup ((word : Int) % 0x8000) with
  | none => exact Reader.Decisive.failure _
  | some command => exact readArgs_decisive command.params

theorem readFrom_decisive (table : Table) (offset : Int) : (readFrom table offset).Decisive := by
  intro input fault rest failed
  simp only [readFrom_error_iff] at failed ⊢
  exact readBody_decisive table input fault rest failed

/-- Where reading an instruction stops, whether it succeeds or not. -/
def windowEnd (table : Table) (data : Bytes) (start : Nat) : Nat :=
  (Cursor.instruction ⟨data, start⟩ table).2.position

/-- The bytes up to where reading stops decide what is decoded, among data of one size. -/
theorem window_decides (table : Table) (data : Bytes) (start : Nat) :
    ∃ bytes rest : Bytes, data.drop start = bytes ++ rest ∧
      windowEnd table data start = start + bytes.length ∧
      ∀ other behind : Bytes, other.drop start = bytes ++ behind →
        behind.length = rest.length → decode table other start = decode table data start := by
  simp only [windowEnd, decode, Cursor.instruction, Cursor.run, Cursor.leaving, Cursor.rest, read,
    EStateM.adaptExcept, Int.toNat_natCast]
  cases done : readFrom table start (data.drop start) with
  | ok instruction rest =>
      have known := readFrom_recognizes table start
      obtain ⟨bytes, whole, form⟩ := known.sound instruction _ rest done
      refine ⟨bytes, rest, whole, by simp [whole], ?_⟩
      intro other behind begins _
      rw [begins, known.complete instruction bytes behind form]
  | error fault rest =>
      obtain ⟨bytes, whole, always⟩ := (readFrom_decisive table start).alike done
      refine ⟨bytes, rest, whole, by simp [whole], ?_⟩
      intro other behind begins size
      rw [begins, always behind size]

/-- Data of one size that agree from the start of an instruction to where reading it stops
decode alike there. -/
theorem decode_of_window (table : Table) {data other : Bytes} (start : Nat)
    (size : other.length = data.length)
    (agree : ∀ position, start ≤ position → position < windowEnd table data start →
      other[position]? = data[position]?) :
    decode table other start = decode table data start := by
  obtain ⟨bytes, rest, whole, stop, decides⟩ := window_decides table data start
  have begins : (other.drop start).take bytes.length = bytes := by
    apply List.ext_getElem?
    intro index
    by_cases inside : index < bytes.length
    · have same : other[start + index]? = data[start + index]? :=
        agree (start + index) (Nat.le_add_right _ _) (by omega)
      rw [List.getElem?_take_of_lt inside, List.getElem?_drop, same, ← List.getElem?_drop, whole,
        List.getElem?_append_left inside]
    · rw [List.getElem?_eq_none (by simp only [List.length_take]; omega),
        List.getElem?_eq_none (by omega)]
  apply decides other ((other.drop start).drop bytes.length)
  · have split := List.take_append_drop bytes.length (other.drop start)
    rw [begins] at split
    exact split.symm
  · have total := congrArg List.length whole
    simp only [List.length_drop, List.length_append] at total ⊢
    omega

end Instruction

end ScriptAudit
