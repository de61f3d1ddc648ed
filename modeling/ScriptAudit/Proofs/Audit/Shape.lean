import ScriptAudit.Proofs.Audit.Lockstep

/-!
What an analysis looks at in a table of commands. Reading an argument depends on whether its
parameter is a list, and on its type only as far as pointers, models, end marks and buffers
are told from all others. So tables that find parameters of the same shapes under the same
opcodes lead to the same analysis but for the names of the instructions. The order of the
commands, their names, what they return, and where an argument is kept do not matter.
-/
namespace ScriptAudit

namespace ParamType

/-- Numbers and texts are read like operands of any type. -/
def shape : ParamType → ParamType
  | integer => any
  | string => any
  | real => any
  | type => type

theorem shape_eq_iff (type kind : ParamType) (special : kind ∉ [integer, string, real, any]) :
    type.shape = kind ↔ type = kind := by
  revert special
  cases type <;> cases kind <;> decide

end ParamType

namespace Param

def shape (param : Param) : Param :=
  { type := param.type.shape, variadic := param.variadic }

theorem reinterpret_shape (param : Param) : param.shape.reinterpret = param.reinterpret := by
  funext operand
  cases operand with
  | integer value =>
      unfold reinterpret shape
      cases param.type <;> rfl
  | _ => rfl

theorem readItems_shape (param : Param) (fuel : Nat) :
    readItems param.shape fuel = readItems param fuel := by
  induction fuel with
  | zero => rfl
  | succ fuel ih => simp only [readItems, reinterpret_shape, ih]

theorem readVarargs_shape (param : Param) : readVarargs param.shape = readVarargs param := by
  simp only [readVarargs, readItems_shape]

theorem read_shape (param : Param) : param.shape.read = param.read := by
  have buffer : param.shape.type = .buffer ↔ param.type = .buffer :=
    ParamType.shape_eq_iff param.type .buffer (by decide)
  have endMark : param.shape.type = .endMark ↔ param.type = .endMark :=
    ParamType.shape_eq_iff param.type .endMark (by decide)
  have variadic : param.shape.variadic = param.variadic := rfl
  unfold read
  simp only [buffer, endMark, variadic, readVarargs_shape, reinterpret_shape]

end Param

namespace Command

def shape (command : Command) : List Param := command.params.map Param.shape

def outline (command : Command) : Int × List Param := (command.opcode, command.shape)

end Command

namespace Table

/-- Tables that find commands under the same opcodes, with as many parameters, of the same
shapes place by place. -/
def SameShapes (one other : Table) : Prop :=
  ∀ opcode, (one.lookup opcode).map Command.shape = (other.lookup opcode).map Command.shape

theorem lookup_shape_eq_some_iff (table : Table) (opcode : Int) (shape : List Param) :
    (table.lookup opcode).map Command.shape = some shape ↔
      (opcode, shape) ∈ table.commands.map Command.outline := by
  simp only [Option.map_eq_some_iff, lookup_eq_some_iff, List.mem_map]
  constructor
  · rintro ⟨command, ⟨member, rfl⟩, rfl⟩
    exact ⟨command, member, rfl⟩
  · rintro ⟨command, member, same⟩
    cases same
    exact ⟨command, ⟨member, rfl⟩, rfl⟩

/-- The order of the commands does not matter, nor does what their outlines leave out. -/
theorem SameShapes.of_perm {one other : Table}
    (arranged : (one.commands.map Command.outline).Perm (other.commands.map Command.outline)) :
    one.SameShapes other := by
  intro opcode
  apply Option.ext
  intro shape
  rw [lookup_shape_eq_some_iff, lookup_shape_eq_some_iff]
  exact arranged.mem_iff

theorem SameShapes.counterpart {one other : Table} (same : one.SameShapes other) {opcode : Int}
    {command : Command} (found : one.lookup opcode = some command) :
    ∃ twin, other.lookup opcode = some twin ∧ twin.shape = command.shape := by
  have shapes := same opcode
  rw [found] at shapes
  exact Option.map_eq_some_iff.mp shapes.symm

end Table

namespace Instruction

theorem readArgs_shape (params : List Param) :
    readArgs (params.map Param.shape) = readArgs params := by
  induction params with
  | nil => rfl
  | cons param params ih => simp only [List.map_cons, readArgs, Param.read_shape, ih]

theorem readArgs_of_shape {one other : Command} (same : one.shape = other.shape) :
    readArgs one.params = readArgs other.params := by
  rw [← readArgs_shape one.params, ← readArgs_shape other.params]
  exact congrArg readArgs same

theorem readBody_of_shapes {one other : Table} (same : one.SameShapes other) :
    readBody other = readBody one := by
  unfold readBody
  congr 1
  funext word
  cases found : one.lookup ((word : Int) % 0x8000) with
  | none =>
      have shapes := same ((word : Int) % 0x8000)
      rw [found] at shapes
      rw [Option.map_eq_none_iff.mp shapes.symm]
  | some command =>
      obtain ⟨twin, foundTwin, shapes⟩ := same.counterpart found
      rw [foundTwin]
      exact readArgs_of_shape shapes

def rename (table : Table) (instruction : Instruction) : Instruction :=
  { instruction with name := ((table.lookup instruction.opcode).map Command.name).getD [] }

def unnamed (instruction : Instruction) : Instruction := { instruction with name := [] }

theorem readFrom_of_shapes {one other : Table} (same : one.SameShapes other) {offset : Int}
    {input rest : Bytes} {instruction : Instruction}
    (read : readFrom one offset input = .ok instruction rest) :
    readFrom other offset input = .ok (instruction.rename other) rest := by
  obtain ⟨low, high, behind, command, args, whole, found, readArguments, rfl⟩ :=
    (readFrom_ok_iff _ _ _ _ _).mp read
  obtain ⟨twin, foundTwin, shapes⟩ := same.counterpart found
  apply (readFrom_ok_iff _ _ _ _ _).mpr
  refine ⟨low, high, behind, twin, args, whole, foundTwin, ?_, ?_⟩
  · rw [readArgs_of_shape shapes]
    exact readArguments
  · simp only [rename, foundTwin, Option.map_some, Option.getD_some]

/-- Tables of the same shapes decode alike, each with its own name. -/
theorem decode_of_shapes {one other : Table} (same : one.SameShapes other) (data : Bytes)
    (offset : Int) :
    decode other data offset = (decode one data offset).map (rename other) := by
  unfold decode read EStateM.adaptExcept
  cases done : readFrom one offset (data.drop offset.toNat) with
  | ok instruction rest =>
      simp only [readFrom_of_shapes same done]
      rfl
  | error fault rest =>
      have failed : readFrom other offset (data.drop offset.toNat) = .error fault rest := by
        rw [readFrom_error_iff, readBody_of_shapes same, ← readFrom_error_iff]
        exact done
      simp only [failed]
      rfl

end Instruction

structure AlikeButNames (one other : Table) (data : Bytes) : Prop where
  offsets : (explore other data).1.instructions.map Prod.fst =
    (explore one data).1.instructions.map Prod.fst
  edges : (explore other data).1.edges = (explore one data).1.edges
  failures : (explore other data).1.failures = (explore one data).1.failures
  instructions :
    (explore other data).1.instructions.map (fun entry => (entry.1, entry.2.unnamed)) =
      (explore one data).1.instructions.map fun entry => (entry.1, entry.2.unnamed)
  log : (explore other data).2 = (explore one data).2
  verdict : checkStrict other (.bytes data) = checkStrict one (.bytes data)

theorem AlikeButNames.of_shapes {one other : Table} (same : one.SameShapes other)
    (data : Bytes) : AlikeButNames one other data := by
  have keeps : ∀ instruction : Instruction,
      (instruction.rename other).successors = instruction.successors := fun _ => rfl
  have explored := explore_relabel keeps fun offset (_ : Reachable one data offset) =>
    Instruction.decode_of_shapes same data offset
  exact {
    offsets := by rw [explored, Graph.offsets_relabel]
    edges := by rw [explored, Graph.edges_relabel keeps]
    failures := by rw [explored]; rfl
    instructions := by
      rw [explored, Graph.relabel, List.map_map]
      rfl
    log := by rw [explored]
    verdict := checkStrict_relabel explored (fun _ => rfl) (fun _ => rfl) }

/-- Only the shapes of the parameters matter to the analysis of a script. In particular it
stays the same where the commands are arranged in another order, with other names, results,
locations and outputs. -/
theorem analysis_by_shapes (one other : Table) (data : Bytes) :
    (one.SameShapes other → AlikeButNames one other data) ∧
    ((one.commands.map Command.outline).Perm (other.commands.map Command.outline) →
      AlikeButNames one other data) := by
  constructor
  · intro same
    exact AlikeButNames.of_shapes same data
  · intro arranged
    exact AlikeButNames.of_shapes (.of_perm arranged) data

def pauseTable : Table where
  commands :=
    [{ opcode := 0x0051, name := "end", returns := true },
     { opcode := 0x004D, name := "jump",
       params := [{ type := .pointer, location := .localSlot, output := true }] },
     { opcode := 0x0001, name := "pause", params := [{ type := .string, location := .globalSlot }] }]
  distinct := by decide

theorem pauseTable_alike :
    (waitTable.commands.map Command.outline).Perm (pauseTable.commands.map Command.outline) ∧
    AlikeButNames waitTable pauseTable waitBytes ∧
    (explore pauseTable waitBytes).1.instructions.map (fun entry => entry.2.name) ≠
      (explore waitTable waitBytes).1.instructions.map fun entry => entry.2.name := by
  have arranged : (waitTable.commands.map Command.outline).Perm
      (pauseTable.commands.map Command.outline) := by decide
  refine ⟨arranged, (analysis_by_shapes waitTable pauseTable waitBytes).2 arranged, ?_⟩
  decide +kernel

end ScriptAudit
