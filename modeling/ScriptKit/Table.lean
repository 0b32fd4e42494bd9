import ScriptKit.Text.Blank
import ScriptKit.Text.Columns
import ScriptKit.Text.Numeral

/-!
# Tables

Tables for a terminal. A column is as wide as its widest line; headings and the footer are centred and in
capitals, numbers stand at the right and everything else at the left. Cells of several lines are allowed.

A table may wrap its cells. Then a cell is one paragraph, broken at spaces so that the lines are as even
as can be: the sum of the squares of the gaps at the right is least, the last line aside.
-/

namespace ScriptKit

/-- A table: headings, rows of cells, a last row that sums up, and the width at which cells wrap. -/
structure Table where
  headings : List Text
  rows : List (List Text)
  footer : Option (List Text) := none
  wrapAt : Option Nat := none

namespace Table

/-! ## Wrapping -/

/-- The sum of some widths. -/
def total (widths : List Nat) : Nat := widths.foldr (· + ·) 0

/-- The width of a word, colour sequences not taken out. -/
def wordWidth (word : Text) : Nat := total (word.map Glyph.columns)

/-- What a line over the limit costs on top of its gap. -/
def overrun : Nat := 100000

/-- The cost of a line of a given width before the last one. -/
def lineCost (limit width : Nat) : Nat :=
  let gap := (limit : Int) - width
  (gap * gap).toNat + if width > limit then overrun else 0

/-- How a paragraph is best broken: what that costs and how many words its first line takes. -/
structure Break where
  cost : Nat
  words : Nat
  deriving Repr

/-- The cheapest way to end the first line after one more of the words `widths`. The line has `width`
columns and `words` words so far; `later` holds the best breaks after each of the words to come. The
earliest of several cheapest ends wins. -/
def cheapest (limit width words : Nat) : List Nat → List Break → Option Break → Option Break
  | next :: widths, after :: later, best =>
    let cost := lineCost limit width + after.cost
    let better :=
      match best with
      | some b => if cost < b.cost then ⟨cost, words⟩ else b
      | none => ⟨cost, words⟩
    cheapest limit (width + 1 + next) (words + 1) widths later (some better)
  | _, _, best => best

/-- The best breaks of a paragraph and of all its ends, the whole paragraph first. -/
def breaks (limit : Nat) : List Nat → List Break
  | [] => []
  | width :: widths =>
    let later := breaks limit widths
    let whole := width + total (widths.map (· + 1))
    if whole ≤ limit then ⟨0, widths.length + 1⟩ :: later
    else (cheapest limit width 1 widths later none).getD ⟨0, widths.length + 1⟩ :: later

/-- The lines of a paragraph whose words are broken as `bs` says. `skip` words belong to the line that is
already taken. -/
def wrapLines : Nat → List Text → List Break → List Text
  | skip + 1, _ :: words, _ :: bs => wrapLines skip words bs
  | 0, word :: words, b :: bs =>
    Text.join " " (word :: words.take (b.words - 1)) :: wrapLines (b.words - 1) words bs
  | _, _, _ => []

/-- Whether a glyph is a line feed. -/
def isLineFeed (g : Glyph) : Bool := g == .char '\n'

/-- Whether a glyph is the space between words. -/
def isGap (g : Glyph) : Bool := g == .char ' '

/-- The greatest of some widths. -/
def widest (widths : List Nat) : Nat := widths.foldl max 0

/-- The lines of a cell and the width it asks for. -/
structure Cell where
  lines : List Text
  width : Nat

/-- Lay out a cell. Line feeds begin new lines, or stand for spaces if cells wrap; a word longer than the
limit makes the cell wider. -/
def layOut (wrapAt : Option Nat) (cell : Text) : Cell :=
  let lines := Text.splitOn isLineFeed cell
  let width := widest (lines.map Text.columns)
  match wrapAt with
  | none => ⟨lines, width⟩
  | some limit =>
    let width := min width limit
    let words := Text.splitOn isGap (Text.join " " lines)
    let widths := words.map wordWidth
    let lines := wrapLines 0 words (breaks (max width (widest widths)) widths)
    ⟨lines, max width (widest (lines.map Text.columns))⟩

/-! ## Alignment -/

/-- Whether a text is made of one or more digits. -/
def isDigits (t : Text) : Bool := !t.isEmpty && t.all fun g => (Text.digitValue? g).isSome

/-- Whether a text is a whole number, perhaps with commas between groups of three digits. -/
def isWhole (t : Text) : Bool :=
  isDigits t ||
    match Text.splitOn (· == .char ',') t with
    | [] => false
    | first :: groups =>
      isDigits first && first.length ≤ 3 && groups.all fun g => isDigits g && g.length == 3

/-- Whether a text is a number: a sign if it is negative, a whole number, and perhaps decimal places. -/
def isNumber (t : Text) : Bool :=
  let t :=
    match t with
    | .char '-' :: rest => rest
    | t => t
  match Text.splitOn (· == .char '.') t with
  | [whole] => isWhole whole
  | [whole, places] => isWhole whole && isDigits places
  | _ => false

/-- As many spaces as a text lacks to a width. -/
def gap (width : Nat) (t : Text) : Nat := width - t.columns

/-- A line of a cell in its column. -/
def align (width : Nat) (t : Text) : Text :=
  if isNumber t.trim then Text.repeated (gap width t) ' ' ++ t
  else t ++ Text.repeated (gap width t) ' '

/-- A heading in its column; an odd space goes to the right. -/
def centre (width : Nat) (t : Text) : Text :=
  let left := gap width t / 2
  Text.repeated left ' ' ++ t ++ Text.repeated (gap width t - left) ' '

/-- A text in capitals. Headings are written in ASCII. -/
def capitals (t : Text) : Text :=
  t.map fun
    | .char c => .char c.toUpper
    | .stray b => .stray b

/-! ## Rendering -/

/-- One line of a table. -/
def line (columns : List Text) : Text :=
  " " ++ Text.join "|" (columns.map fun c => " " ++ c ++ " ") ++ " \n"

/-- The rule between the parts of a table. -/
def rule (widths : List Nat) : Text :=
  "-" ++ Text.join "+" (widths.map fun w => Text.repeated (w + 2) '-') ++ "-\n"

/-- What stands in a row where a cell has no more lines. -/
def noLine : Text := "  "

/-- The lines of a row of cells. -/
def renderRow (widths : List Nat) (cells : List Cell) : Text :=
  let height := widest (cells.map fun c => c.lines.length)
  (List.range height).flatMap fun i =>
    line ((widths.zip cells).map fun (width, c) => align width ((c.lines[i]?).getD noLine))

/-- The width of each column: that of the widest of its cells. -/
def columnWidths (parts : List (List Cell)) (columns : Nat) : List Nat :=
  (List.range columns).map fun i => widest (parts.map fun cells => ((cells[i]?).map Cell.width).getD 0)

/-- A table as text. -/
def render (t : Table) : Text :=
  let headings := t.headings.map capitals
  let footer := t.footer.map fun cells => cells.map capitals
  let rows := t.rows.map fun row => row.map (layOut t.wrapAt)
  let outer := (headings :: footer.toList).map fun row => row.map (layOut t.wrapAt)
  let widths := columnWidths (outer ++ rows) headings.length
  let titles := fun row => line ((widths.zip row).map fun (width, title) => centre width title)
  titles headings ++ rule widths ++ rows.flatMap (renderRow widths) ++
    (match footer with
      | some row => rule widths ++ titles row ++ rule widths
      | none => [])

end Table

end ScriptKit
