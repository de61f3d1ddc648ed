import ScriptAudit.Association
import ScriptAudit.Event
import ScriptAudit.Text.Blank
import ScriptAudit.Text.Lines

/-! Language files. A line holds a key and a value with one space between them; two slashes
or a number sign begin a comment. A line that holds a key alone is reported. -/
namespace ScriptAudit.Language

abbrev Entries := List (Text × Text)

inductive Line where
  | blank
  | entry (key value : Text)
  | keyOnly (text : Text)
deriving DecidableEq

def beforeComment : Text → Text
  | [] => []
  | .char '#' :: _ => []
  | .char '/' :: .char '/' :: _ => []
  | point :: rest => point :: beforeComment rest

def space : CodePoint := .char ' '

/-- The parts before and after the first space. -/
def splitAtSpace (text : Text) : Option (Text × Text) :=
  match text.dropWhile (· != space) with
  | [] => none
  | _ :: value => some (text.takeWhile (· != space), value)

def Line.ofRaw (raw : Text) : Line :=
  match Text.trim (beforeComment raw) with
  | [] => .blank
  | text =>
    match splitAtSpace text with
    | some (key, value) => .entry key value
    | none => .keyOnly text

def Line.entry? : Line → Option (Text × Text)
  | entry key value => some (key, value)
  | _ => none

def Line.warning? : Line → Option Event
  | keyOnly text => some (.lineWithoutValue text)
  | _ => none

def linesOf (text : Text) : List Line := (Text.lines text).map Line.ofRaw

def entries (text : Text) : Entries :=
  Association.update [] ((linesOf text).filterMap Line.entry?)

def warnings (text : Text) : List Event := (linesOf text).filterMap Line.warning?

def parse (text : Text) : Entries × List Event := (entries text, warnings text)

end ScriptAudit.Language
