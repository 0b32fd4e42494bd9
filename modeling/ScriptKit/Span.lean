import ScriptKit.Text.Basic

/-!
# Places in a source

Positions count lines and columns from one; a column is one glyph wide. A span runs from the position
of its first glyph to the position just after its last one.
-/

namespace ScriptKit

/-- A line and a column, both counted from one. -/
structure Pos where
  line : Nat
  col : Nat
  deriving DecidableEq, Repr, Inhabited

namespace Pos

/-- Where every source begins. -/
def first : Pos := ⟨1, 1⟩

/-- The position after a glyph: a line feed opens the next line. -/
def after (p : Pos) : Glyph → Pos
  | .char '\n' => ⟨p.line + 1, 1⟩
  | _ => ⟨p.line, p.col + 1⟩

/-- The position after a text. -/
def afterText (p : Pos) (t : Text) : Pos := t.foldl after p

/-- Positions in reading order. -/
def Le (p q : Pos) : Prop := p.line < q.line ∨ (p.line = q.line ∧ p.col ≤ q.col)

/-- Strictly earlier in reading order. -/
def Lt (p q : Pos) : Prop := p.line < q.line ∨ (p.line = q.line ∧ p.col < q.col)

instance (p q : Pos) : Decidable (p.Le q) := by unfold Le; infer_instance

instance (p q : Pos) : Decidable (p.Lt q) := by unfold Lt; infer_instance

end Pos

/-- A stretch of a source file, from the position of its first glyph to the one after its last. -/
structure Span where
  file : Text
  start : Pos
  stop : Pos
  deriving DecidableEq, Repr, Inhabited

namespace Span

/-- The span from the start of one span to a later position. -/
def upTo (s : Span) (stop : Pos) : Span := { s with stop := stop }

/-- The span from the start of one span to the end of another. -/
def through (s t : Span) : Span := s.upTo t.stop

/-- The span of one column at a position. -/
def column (file : Text) (p : Pos) : Span := ⟨file, p, ⟨p.line, p.col + 1⟩⟩

end Span

end ScriptKit
