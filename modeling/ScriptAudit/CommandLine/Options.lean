import ScriptAudit.Files.Path
import ScriptAudit.Text.Numeral

/-! The words of a command line. Long switches may be shortened as long as one switch is
meant, and take a value after an equals sign or as the next word; short switches may be
joined. A word that looks like a negative number, or that holds a space and is no switch,
is an operand, and after two dashes every word is. All operands stand together. Two dashes
after an equals sign are no value: they are dropped, and the switch is left without one. -/
namespace ScriptAudit

inductive Switch where
  | help
  | commands
  | listing
  | listingOut
  | maxInstructions
  | describe
  | cheat
  | summary
  | verbose
  | logFile
deriving DecidableEq

namespace Switch

def longNames : List (Text × Switch) :=
  [("help", help), ("commands", commands), ("listing", listing), ("listing-out", listingOut),
   ("max-instructions", maxInstructions), ("describe", describe), ("cheat", cheat),
   ("summary", summary), ("verbose", verbose), ("log-file", logFile)]

def longName (switch : Switch) : Text :=
  ((longNames.find? (·.2 = switch)).map (·.1)).getD []

def ofLetter? : CodePoint → Option Switch
  | .char 'h' => some help
  | .char 'v' => some verbose
  | _ => none

def takesValue : Switch → Bool
  | commands | listingOut | maxInstructions | describe | cheat | logFile => true
  | help | listing | summary | verbose => false

/-- The switches that a long name, in full or shortened, may mean. -/
def matching (name : Text) : List Switch :=
  match longNames.find? (·.1 = name) with
  | some (_, switch) => [switch]
  | none => (longNames.filter fun entry => name.isPrefixOf entry.1).map (·.2)

end Switch

/-- Why no options come out of a command line. -/
inductive Stop where
  | help
  | usage
deriving DecidableEq

/-- What a word is: an operand, the two dashes that end the switches, a long switch, joined
short switches, a word that is left over, or joined letters that make no sense. -/
inductive Word where
  | operand (text : Text)
  | separator
  | long (switch : Switch) (value : Option Text)
  | flags (switches : List Switch)
  | unknown
  | malformed

namespace Word

def dropLineFeed (text : List Char) : List Char :=
  match text.reverse with
  | '\n' :: rest => rest.reverse
  | _ => text

def isDecimal (c : Char) : Bool := (Text.decimalDigit? c).isSome

/-- Digits after a minus, or a point with digits after it and maybe before. A line feed at
the end does not count. -/
def isNegativeNumeral (text : List Char) : Bool :=
  match dropLineFeed text with
  | '-' :: digits =>
    match digits.dropWhile isDecimal with
    | [] => !digits.isEmpty
    | '.' :: places => !places.isEmpty && places.all isDecimal
    | _ => false
  | _ => false

def isNegativeNumber (text : Text) : Bool := text.chars?.any isNegativeNumeral

/-- A word that begins with a dash and means no switch. -/
def unmatched (text : Text) : Word :=
  if isNegativeNumber text || text.contains (.char ' ') then operand text else unknown

def equals : CodePoint := .char '='

def valueAfterEquals (text : Text) : Option Text :=
  match text.dropWhile (· != equals) with
  | [] => none
  | _ :: value => some value

def dash : CodePoint := .char '-'

def dashes : Text := [dash, dash]

/-- A word after two dashes. More than one switch that may be meant is a usage error, also
where a switch before it asks for help. -/
def ofLong (text : Text) : Except Stop Word :=
  match Switch.matching (text.takeWhile (· != equals)) with
  | [] => .ok (unmatched (dashes ++ text))
  | [switch] => .ok (long switch (valueAfterEquals text))
  | _ => .error .usage

/-- Letters behind a short switch, each of which has to be one too. -/
def joined (switch : Switch) (letters : Text) : Word :=
  match letters.mapM Switch.ofLetter? with
  | some more => flags (switch :: more)
  | none => malformed

/-- One equals sign may stand between the first letter and others. -/
def ofShort (letters : Text) : Word :=
  match letters with
  | [] => operand [dash]
  | letter :: rest =>
    match Switch.ofLetter? letter, rest with
    | some _, [.char '='] => malformed
    | some switch, .char '=' :: more => joined switch more
    | some switch, more => joined switch more
    | none, _ => unmatched (dash :: letters)

def ofText (text : Text) : Except Stop Word :=
  match text with
  | .char '-' :: .char '-' :: name => ofLong name
  | .char '-' :: letters => .ok (ofShort letters)
  | text => .ok (operand text)

def classify : List Text → Except Stop (List Word)
  | [] => .ok []
  | text :: rest =>
    if text = dashes then .ok (separator :: rest.map operand)
    else do
      let word ← ofText text
      return word :: (← classify rest)

end Word

/-- What a switch was given as its value. -/
inductive Given (α : Type) where
  | value (value : α)
  | dashes
deriving DecidableEq

namespace Given

variable {α : Type}

/-- The values up to the first two dashes. -/
def leading : List (Given α) → List α
  | value first :: rest => first :: leading rest
  | _ => []

def isDashes : Given α → Bool
  | value _ => false
  | dashes => true

end Given

structure Options where
  inputs : List Path := []
  commands : Option (Given Path) := none
  listing : Bool := false
  listingOut : Option Path := none
  maxInstructions : Option (Given Int) := none
  describe : List (Given Text) := []
  cheat : List (Given Text) := []
  summary : Bool := false
  verbose : Nat := 0
  logFile : Option Path := none

namespace Options

def setFlag (options : Options) : Switch → Except Stop Options
  | .help => .error .help
  | .listing => .ok { options with listing := true }
  | .summary => .ok { options with summary := true }
  | .verbose => .ok { options with verbose := options.verbose + 1 }
  | _ => .error .usage

/-- A path without a value is as good as none. -/
def setDashes (options : Options) : Switch → Except Stop Options
  | .commands => .ok { options with commands := some .dashes }
  | .listingOut => .ok { options with listingOut := none }
  | .logFile => .ok { options with logFile := none }
  | .describe => .ok { options with describe := options.describe ++ [.dashes] }
  | .cheat => .ok { options with cheat := options.cheat ++ [.dashes] }
  | .maxInstructions => .ok { options with maxInstructions := some .dashes }
  | _ => .error .usage

def setText (options : Options) (text : Text) : Switch → Except Stop Options
  | .commands => .ok { options with commands := some (.value (Path.ofText text)) }
  | .listingOut => .ok { options with listingOut := some (Path.ofText text) }
  | .logFile => .ok { options with logFile := some (Path.ofText text) }
  | .describe => .ok { options with describe := options.describe ++ [.value text] }
  | .cheat => .ok { options with cheat := options.cheat ++ [.value text] }
  | .maxInstructions =>
    match text.chars?.bind Text.decimal? with
    | some most => .ok { options with maxInstructions := some (.value most) }
    | none => .error .usage
  | _ => .error .usage

def setValue (options : Options) (text : Text) (switch : Switch) : Except Stop Options :=
  if text = Word.dashes then options.setDashes switch else options.setText text switch

def setSwitch (options : Options) (switch : Switch) (value : Option Text) :
    Except Stop Options :=
  match value with
  | some text => options.setValue text switch
  | none => options.setFlag switch

end Options

/-- Options under way, whether the operands are complete, and whether a word was left over. -/
structure Parsing where
  options : Options := {}
  grouped : Bool := false
  openGroup : Bool := false
  leftOver : Bool := false

namespace Parsing

/-- An operand opens the group, adds to the open one, or comes too late. -/
def addOperand (state : Parsing) (text : Option Text) : Parsing :=
  if state.grouped && !state.openGroup then { state with leftOver := true }
  else
    { state with
      options := { state.options with
        inputs := state.options.inputs ++ (text.map Path.ofText).toList }
      grouped := true
      openGroup := true }

def words (state : Parsing) : List Word → Except Stop Parsing
  | [] => .ok state
  | .operand text :: rest => words (state.addOperand (some text)) rest
  | .separator :: rest => words (state.addOperand none) rest
  | .flags switches :: rest => do
    let options ← switches.foldlM Options.setFlag state.options
    words { state with options, openGroup := false } rest
  | .unknown :: rest => words { state with openGroup := false, leftOver := true } rest
  | .malformed :: _ => .error .usage
  | .long switch none :: .operand text :: rest =>
    if switch.takesValue then do
      let options ← state.options.setValue text switch
      words { state with options, openGroup := false } rest
    else do
      let options ← state.options.setFlag switch
      words ({ state with options, openGroup := false }.addOperand (some text)) rest
  | .long switch value :: rest => do
    let options ← state.options.setSwitch switch value
    words { state with options, openGroup := false } rest

end Parsing

namespace Options

def isIdle (options : Options) : Bool :=
  options.inputs.isEmpty && options.describe.isEmpty && options.cheat.isEmpty

def parse (args : List Text) : Except Stop Options := do
  let state ← Parsing.words {} (← Word.classify args)
  if state.leftOver || state.options.isIdle then .error .usage else .ok state.options

end Options
end ScriptAudit
