import ScriptKit.Text.Basic

/-!
# Blank characters

The characters that separate words: the ASCII controls from tab to carriage return, the space, and the
other characters of the Unicode property White_Space.
-/

namespace ScriptKit

/-- Whether a character is blank. -/
def Text.isBlankChar (c : Char) : Bool :=
  let n := c.toNat
  (0x9 ≤ n && n ≤ 0xD) || n == 0x20 || n == 0x85 || n == 0xA0 || n == 0x1680 ||
    (0x2000 ≤ n && n ≤ 0x200A) || n == 0x2028 || n == 0x2029 || n == 0x202F || n == 0x205F ||
    n == 0x3000

/-- Whether a glyph is blank; a stray byte never is. -/
def Glyph.isBlank : Glyph → Bool
  | .char c => Text.isBlankChar c
  | .stray _ => false

/-- A text without the blanks at its ends. -/
def Text.trim (t : Text) : Text := t.strip Glyph.isBlank

end ScriptKit
