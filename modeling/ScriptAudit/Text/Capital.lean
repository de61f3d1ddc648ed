import ScriptAudit.Text.CodePoint

/-! Capital letters, as far as the capital form is ASCII: Latin letters, the sharp s, the
dotless i, the long s and the Latin ligatures. Other code points are kept; none of them
becomes ASCII. -/
namespace ScriptAudit.Text

def capital (c : Char) : List Char :=
  match c with
  | 'ß' => ['S', 'S']
  | 'ı' => ['I']
  | 'ſ' => ['S']
  | 'ﬀ' => ['F', 'F']
  | 'ﬁ' => ['F', 'I']
  | 'ﬂ' => ['F', 'L']
  | 'ﬃ' => ['F', 'F', 'I']
  | 'ﬄ' => ['F', 'F', 'L']
  | 'ﬅ' => ['S', 'T']
  | 'ﬆ' => ['S', 'T']
  | c => [c.toUpper]

def capitals (text : Text) : Text :=
  text.flatMap fun
    | .char c => ofChars (capital c)
    | .surrogate place => [.surrogate place]

end ScriptAudit.Text
