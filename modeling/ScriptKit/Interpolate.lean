import ScriptKit.Scope
import ScriptKit.Text.Blank

/-!
# Interpolation

In a string literal a dollar sign and the glyphs after it, up to the next blank or quote, stand for the
variable they name. A dollar sign with no name after it stands for itself. What a variable contributes
is not searched for further names.
-/

namespace ScriptKit

/-- A part of a string literal. -/
inductive Piece where
  | glyph (g : Glyph)
  | variable (name : Text)
  deriving DecidableEq, Repr, Inhabited

namespace Piece

/-- Whether a glyph goes on with the name after a dollar sign. -/
def inName (g : Glyph) : Bool := !(g.isBlank || g == .char '"')

/-- The pieces of a literal after `taken` more glyphs, which belong to a name already seen. -/
def split : Nat → Text → List Piece
  | _, [] => []
  | taken + 1, _ :: rest => split taken rest
  | 0, g :: rest =>
    if g = .char '$' then
      match rest.takeWhile inName with
      | [] => .glyph g :: split 0 rest
      | name => .variable name :: split name.length rest
    else .glyph g :: split 0 rest

/-- The pieces of a literal. -/
def ofLiteral (t : Text) : List Piece := split 0 t

/-- The name of the variable a piece stands for. -/
def name? : Piece → Option Text
  | .glyph _ => none
  | .variable name => some name

end Piece

/-- The names a literal interpolates, in order. -/
def placeholders (t : Text) : List Text := (Piece.ofLiteral t).filterMap Piece.name?

/-- The text of the pieces of a literal, with the values the chain has for its names. -/
def Piece.fill (chain : Chain) : List Piece → Except Scope.Error Text
  | [] => .ok []
  | .glyph g :: rest => do return g :: (← fill chain rest)
  | .variable name :: rest => do
    let value ← chain.resolve name
    let tail ← fill chain rest
    return (value.map Value.text).getD [] ++ tail

/-- The text of a literal where the variables of a chain are visible. -/
def interpolate (chain : Chain) (t : Text) : Except Scope.Error Text := do
  return (← Piece.fill chain (Piece.ofLiteral t)).settle

end ScriptKit
