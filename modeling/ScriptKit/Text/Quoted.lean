import ScriptKit.Text.Numeral
import ScriptKit.Text.Printable

/-!
# Quoted text

A text between quotes, in which everything that is not printable is escaped. The quote itself and the
backslash get a backslash, seven controls have short names, other ASCII characters and stray bytes
are written `\xNN`, and the rest `\uNNNN` or `\UNNNNNNNN`.
-/

namespace ScriptKit.Text

/-- The letter that names a control character in an escape. -/
def escapeLetter? (c : Char) : Option Char :=
  match c.toNat with
  | 7 => some 'a'
  | 8 => some 'b'
  | 9 => some 't'
  | 10 => some 'n'
  | 11 => some 'v'
  | 12 => some 'f'
  | 13 => some 'r'
  | _ => none

/-- How one glyph is written between the quotes `mark`. -/
def quoteGlyph (mark : Char) : Glyph → Text
  | .stray b => "\\x" ++ ofHex 2 b.toNat
  | .char c =>
    if c = mark || c = '\\' then [.char '\\', .char c]
    else if isPrintable c then [.char c]
    else
      match escapeLetter? c with
      | some l => [.char '\\', .char l]
      | none =>
        if c.toNat < 0x80 then "\\x" ++ ofHex 2 c.toNat
        else if c.toNat < 0x10000 then "\\u" ++ ofHex 4 c.toNat
        else "\\U" ++ ofHex 8 c.toNat

/-- A text between double quotes. -/
def quoted (t : Text) : Text := [.char '"'] ++ t.flatMap (quoteGlyph '"') ++ [.char '"']

/-- One glyph between single quotes; a stray byte appears as the replacement character. -/
def quotedGlyph (g : Glyph) : Text :=
  [.char '\x27'] ++ quoteGlyph '\x27' (.char g.shown) ++ [.char '\x27']

end ScriptKit.Text
