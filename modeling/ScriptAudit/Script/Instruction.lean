import ScriptAudit.Command.Table

/-! Instructions: an opcode word and the operands of its command. The top bit of the word
inverts the result. Without a command for the opcode the operands, and with them the
start of the next instruction, are unknown, so an unknown opcode is a fault. -/
namespace ScriptAudit

structure Instruction where
  opcode : Int
  name : Text
  offset : Int
  inverted : Bool
  args : List Operand
  size : Int

namespace Instruction

def gotoOpcode : Int := 0x0002
def gotoIfTrueOpcode : Int := 0x004C
def gotoIfFalseOpcode : Int := 0x004D
def gosubOpcode : Int := 0x0050
def returnOpcode : Int := 0x0051
def switchStartOpcode : Int := 0x0871
def switchContinueOpcode : Int := 0x0872

/-- Opcodes that may go on at every script offset among their operands. -/
def branching : List Int :=
  [gotoOpcode, gotoIfTrueOpcode, gotoIfFalseOpcode, gosubOpcode, switchStartOpcode,
   switchContinueOpcode]

def next (instruction : Instruction) : Int := instruction.offset + instruction.size

def targets (instruction : Instruction) : List Int :=
  if instruction.opcode ∈ branching then instruction.args.filterMap Operand.target? else []

/-- The offsets at which control may go on. A return goes back to where the matching gosub
falls through; a goto does not fall through. -/
def successors (instruction : Instruction) : List Int :=
  if instruction.opcode = returnOpcode then []
  else if instruction.opcode = gotoOpcode then instruction.targets
  else instruction.next :: instruction.targets

/-- The listing line of an instruction. -/
def format (instruction : Instruction) : Except RenderError Text := do
  let args ← Operand.renderAll instruction.args
  return Text.hex 8 instruction.offset ++ " " ++ Text.hex 4 instruction.opcode ++ " " ++
    (if instruction.inverted then "!" else "") ++ instruction.name ++
    "(" ++ Text.join ", " args ++ ")"

/-- The operands of a list of parameters; an end mark gives none. -/
def readArgs : List Param → Reader (List Operand)
  | [] => return []
  | param :: rest => do
    let arg ← param.read
    let args ← readArgs rest
    return arg.toList ++ args

def readFrom (table : Table) (offset : Int) : Reader Instruction := do
  let before ← get
  let word ← Reader.unsigned 2
  let opcode : Int := word % 0x8000
  match table.lookup opcode with
  | none => throw (.unknownOpcode opcode)
  | some command =>
    let args ← readArgs command.params
    let after ← get
    return {
      opcode, args, offset
      name := command.name
      inverted := decide (0x8000 ≤ word)
      size := before.length - after.length }

/-- Reads the instruction that starts at an offset; a fault carries that offset. -/
def read (table : Table) (offset : Int) : EStateM DecodeError Bytes Instruction :=
  (readFrom table offset).adaptExcept fun fault => ⟨fault, offset⟩

def decode (table : Table) (data : Bytes) (offset : Int) : Except DecodeError Instruction :=
  match read table offset (data.drop offset.toNat) with
  | .ok instruction _ => .ok instruction
  | .error error _ => .error error

end Instruction
end ScriptAudit
