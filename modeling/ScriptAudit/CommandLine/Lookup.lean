import ScriptAudit.Cheat.Catalogue
import ScriptAudit.Command.Table

/-! Look-ups of commands and cheats, one line of text for each. A command is asked for by
name or by its opcode in hexadecimal, of which the low 15 bits count. -/
namespace ScriptAudit.Lookup

def opcode? (token : Text) : Option Int :=
  (token.chars?.bind Text.hexadecimal?).map (· % Command.opcodeLimit)

def command? (table : Table) (token : Text) : Option Command :=
  match table.named token with
  | some command => some command
  | none => (opcode? token).bind table.lookup

def commandLine (table : Table) (token : Text) : Text :=
  match command? table token with
  | some command => command.describe
  | none => token ++ ": unknown command"

def cheatLine (code : Text) : Text :=
  match Cheat.find? code with
  | some cheat => cheat.code ++ ": " ++ cheat.description ++ " (#" ++ toString cheat.index ++ ")"
  | none => code ++ ": unknown cheat code"

def unknownCommands (table : Table) (tokens : List Text) : Nat :=
  (tokens.filter fun token => (command? table token).isNone).length

def unknownCheats (codes : List Text) : Nat :=
  (codes.filter fun code => (Cheat.find? code).isNone).length

def commandText (table : Table) (tokens : List Text) : Text :=
  Text.ofLines (tokens.map (commandLine table))

def cheatText (codes : List Text) : Text := Text.ofLines (codes.map cheatLine)

end ScriptAudit.Lookup
