import ScriptKit.Text.Basic

/-!
# Letter case

Comparison with fixed ASCII words. `Text.equalFold` ignores case under simple case folding, where the
long s is an `s` and the Kelvin sign a `k`. `Text.lower` maps to lower case, where the dotted capital I
becomes an `i`. No other character outside ASCII folds or maps to an ASCII letter.
-/

namespace ScriptKit.Text

/-- The folded form of a character, as far as ASCII letters are concerned. -/
def foldChar (c : Char) : Char :=
  if c = '\u017F' then 's' else if c = '\u212A' then 'k' else c.toLower

/-- The lower case of a character, as far as ASCII letters are concerned. -/
def lowerChar (c : Char) : Char :=
  if c = '\u0130' then 'i' else if c = '\u212A' then 'k' else c.toLower

/-- Apply a map of characters to a text. -/
def mapChars (f : Char → Char) (t : Text) : Text :=
  t.map fun
    | .char c => .char (f c)
    | .stray b => .stray b

/-- A text in lower case. -/
def lower (t : Text) : Text := t.mapChars lowerChar

/-- Whether two texts agree when case is ignored. -/
def equalFold (s t : Text) : Bool := s.mapChars foldChar == t.mapChars foldChar

end ScriptKit.Text
