/-!
# Text

Source files, names, messages and values are all *texts*: sequences of glyphs, where a glyph is a
character or a byte that belongs to no character. Reading bytes as text loses nothing: a byte that
does not take part in a well-formed character stays in the text as a stray glyph of its own, counts
as one column, and is written back as the byte it was.

`Text.ofBytes` reads bytes, `Text.toBytes` writes them, and `Text.settle` reads a text again after
pieces were joined, so that strays which now form a character become that character.
-/

namespace ScriptKit

/-- One position of a text: a character, or a byte that is part of no character. -/
inductive Glyph where
  | char (c : Char)
  | stray (b : UInt8)
  deriving DecidableEq, Repr, Inhabited

namespace Glyph

/-- The bytes a glyph stands for. -/
def bytes : Glyph → List UInt8
  | .char c => String.utf8EncodeChar c
  | .stray b => [b]

/-- The character that shows a glyph to a reader; a stray byte shows as the replacement character. -/
def shown : Glyph → Char
  | .char c => c
  | .stray _ => '\uFFFD'

/-- Whether a glyph is a character. -/
def isChar : Glyph → Bool
  | .char _ => true
  | .stray _ => false

/-- The code point under which a glyph is classified. -/
def code (g : Glyph) : Nat := g.shown.toNat

end Glyph

/-- A text is a sequence of glyphs. -/
abbrev Text := List Glyph

namespace Text

/-- The text of a list of characters. -/
def ofChars (cs : List Char) : Text := cs.map .char

/-- The text of a string. -/
def ofString (s : String) : Text := ofChars s.toList

instance : Coe String Text := ⟨ofString⟩

/-- The text as it is shown, with a replacement character for each stray byte. -/
def toString (t : Text) : String := String.ofList (t.map Glyph.shown)

/-- The bytes of a text. -/
def toBytes (t : Text) : List UInt8 := t.flatMap Glyph.bytes

/-! ## Reading bytes -/

/-- Whether a byte continues a character of several bytes. -/
def isTail (b : UInt8) : Bool := 0x80 ≤ b && b ≤ 0xBF

/-- The payload bits of a continuation byte. -/
def tailBits (b : UInt8) : Nat := b.toNat - 0x80

/-- Whether `b₀ b₁` can begin a character of three bytes: no overlong form, no surrogate. -/
def isHeadOfThree (b₀ b₁ : UInt8) : Bool :=
  isTail b₁ && (0xE0 ≤ b₀ && b₀ ≤ 0xEF) && !(b₀ == 0xE0 && b₁ < 0xA0) && !(b₀ == 0xED && 0x9F < b₁)

/-- Whether `b₀ b₁` can begin a character of four bytes: no overlong form, nothing above the last
code point. -/
def isHeadOfFour (b₀ b₁ : UInt8) : Bool :=
  isTail b₁ && (0xF0 ≤ b₀ && b₀ ≤ 0xF4) && !(b₀ == 0xF0 && b₁ < 0x90) && !(b₀ == 0xF4 && 0x8F < b₁)

/-- Read bytes as text. A byte that begins no well-formed character is a stray glyph, and reading
goes on with the byte after it. -/
def ofBytes : List UInt8 → Text
  | [] => []
  | b₀ :: rest =>
    if b₀ < 0x80 then .char (Char.ofNat b₀.toNat) :: ofBytes rest
    else
      match rest with
      | [] => [.stray b₀]
      | b₁ :: rest₁ =>
        if 0xC2 ≤ b₀ && b₀ ≤ 0xDF && isTail b₁ then
          .char (Char.ofNat ((b₀.toNat - 0xC0) * 64 + tailBits b₁)) :: ofBytes rest₁
        else
          match rest₁ with
          | [] => .stray b₀ :: ofBytes (b₁ :: [])
          | b₂ :: rest₂ =>
            if isHeadOfThree b₀ b₁ && isTail b₂ then
              .char (Char.ofNat (((b₀.toNat - 0xE0) * 64 + tailBits b₁) * 64 + tailBits b₂)) ::
                ofBytes rest₂
            else
              match rest₂ with
              | [] => .stray b₀ :: ofBytes (b₁ :: b₂ :: [])
              | b₃ :: rest₃ =>
                if isHeadOfFour b₀ b₁ && isTail b₂ && isTail b₃ then
                  .char (Char.ofNat ((((b₀.toNat - 0xF0) * 64 + tailBits b₁) * 64 + tailBits b₂) * 64
                    + tailBits b₃)) :: ofBytes rest₃
                else .stray b₀ :: ofBytes (b₁ :: b₂ :: b₃ :: rest₃)

/-- Read a text again after its pieces were joined. A text without stray bytes is unchanged. -/
def settle (t : Text) : Text := if t.all Glyph.isChar then t else ofBytes t.toBytes

/-! ## Order -/

/-- Byte sequences in dictionary order. -/
def bytesLe : List UInt8 → List UInt8 → Bool
  | [], _ => true
  | _ :: _, [] => false
  | a :: as, b :: bs => a < b || (a == b && bytesLe as bs)

/-- Texts are ordered by their bytes. -/
def le (s t : Text) : Bool := bytesLe s.toBytes t.toBytes

/-- Texts in increasing order. -/
def sort (ts : List Text) : List Text := ts.mergeSort le

/-! ## Pieces -/

/-- Join texts with a separator between each two. -/
def join (sep : Text) : List Text → Text
  | [] => []
  | [t] => t
  | t :: rest => t ++ sep ++ join sep rest

/-- Put one more glyph in front of the pieces of a split text: a separator opens a new piece. -/
def splitStep (p : Glyph → Bool) (g : Glyph) : List Text → List Text
  | [] => [[]]
  | piece :: more => if p g then [] :: piece :: more else (g :: piece) :: more

/-- The pieces between the glyphs that satisfy `p`; there is always at least one. -/
def splitOn (p : Glyph → Bool) (t : Text) : List Text := t.foldr (splitStep p) [[]]

/-- Drop the glyphs that satisfy `p` from the end. -/
def dropRightWhile (p : Glyph → Bool) (t : Text) : Text := (t.reverse.dropWhile p).reverse

/-- Drop the glyphs that satisfy `p` from both ends. -/
def strip (p : Glyph → Bool) (t : Text) : Text := dropRightWhile p (t.dropWhile p)

/-- A text of `n` copies of one character. -/
def repeated (n : Nat) (c : Char) : Text := List.replicate n (.char c)

end Text

end ScriptKit
