import ScriptTree.Snippet.Stroke

/-!
# The window on long lines

Lines that are too long for the screen, or indented very far, are shown in part.  A `Window` says
which columns are shown; it is the same for all lines of a snippet.  `Window.excerpt` is what can be
seen of a line.
-/

namespace ScriptTree.Snippet

open Text

/-- The columns that are shown. -/
structure Window where
  /-- The first column. -/
  left : Nat
  /-- The column after the last one, for lines that are too long. -/
  right : Nat
  /-- How many columns there is room for. -/
  room : Nat
  deriving DecidableEq, Repr

namespace Window

/-- Width of the whole screen. -/
def screen : Nat := 140

/-- Columns that are kept free around what matters, so that dots can stand there. -/
def padding : Nat := 6

/-- Indentation up to here is shown in full. -/
def longIndent : Nat := 20

/-- How much of a longer indentation is shown. -/
def shownIndent : Nat := 16

/-- The dots that stand for what is not shown. -/
def dots : List Char := ['.', '.', '.']

/-- Columns of white space at the start of a line. -/
def indent (chars : List Char) : Nat :=
  (chars.takeWhile isBlank).foldr (fun c n => (if c = '\t' then 4 else 1) + n) 0

/-- The least element, or zero. -/
def least (ns : List Nat) : Nat := ns.min?.getD 0

/-- The greatest element, or zero. -/
def greatest (ns : List Nat) : Nat := ns.max?.getD 0

/-- What has to be in the window, with some padding around it. -/
structure Demand where
  /-- Where the source text starts. -/
  textLeft : Nat
  /-- Where the strokes start. -/
  strokeLeft : Nat
  /-- Where the strokes end. -/
  strokeRight : Nat
  /-- Where the labels end. -/
  labelRight : Nat
  deriving DecidableEq, Repr

/-- What the strokes of some lines demand. -/
def Demand.ofLines (lines : List MarkedLine) : Demand :=
  let texts := (lines.map (·.chars)).filter (·.any (!isBlank ·))
  let strokes := lines.flatMap (·.strokes)
  let columns (s : Stroke) : List Nat := [s.column, s.stopColumn]
  let labelEnd (s : Stroke) : Nat :=
    -- The label stands one column after the stroke.
    s.stopColumn + (s.label.map fun label => Text.columns label + 1).getD 0
  { textLeft := least (texts.map indent) - padding
    strokeLeft := least (strokes.flatMap columns) - padding
    strokeRight := greatest (strokes.flatMap columns) + padding
    labelRight := greatest (strokes.map labelEnd) + padding }

/-- The window that satisfies a demand as far as there is room for it. -/
def ofDemand (room longest : Nat) (d : Demand) : Window :=
  let left := if longIndent < d.textLeft then d.textLeft - shownIndent else 0
  let right := max longest left
  if right - left ≤ room then ⟨left, right, room⟩
  else if d.labelRight - d.textLeft ≤ room then
    -- All fits without the indentation.
    ⟨d.textLeft, d.textLeft + room, room⟩
  else if d.labelRight - d.strokeLeft ≤ room then
    -- Strokes and labels fit; they are shown in the middle.
    let left := d.strokeLeft - (room - (d.labelRight - d.strokeLeft)) / 2
    ⟨left, left + room, room⟩
  else if d.strokeRight - d.strokeLeft ≤ room then
    -- The strokes alone fit; labels get the larger part of what is left over.
    let left := d.strokeLeft - (room - (d.strokeRight - d.strokeLeft)) / 5 * 2
    ⟨left, left + room, room⟩
  else ⟨d.strokeLeft, d.strokeRight, room⟩

/-- The window for some lines, if the first so many columns of the screen are taken. -/
def ofLines (taken : Nat) (lines : List MarkedLine) : Window :=
  ofDemand (screen - taken) (greatest (lines.map fun l => columns l.chars)) (.ofLines lines)

/-- Drop characters up to a column.  The last of them may reach beyond it, so the number of columns
    that were dropped comes with the rest. -/
def skipTo (column : Nat) : List Char → Nat × List Char
  | [] => (0, [])
  | c :: cs =>
    if column = 0 then (0, c :: cs)
    else
      let (skipped, rest) := skipTo (column - columnsOf c) cs
      (columnsOf c + skipped, rest)

/-- The characters that fit into some columns. -/
def fitting (room : Nat) : List Char → List Char
  | [] => []
  | c :: cs => if columnsOf c ≤ room then c :: fitting (room - columnsOf c) cs else []

/-- What can be seen of a line. -/
structure Excerpt where
  /-- Columns to the left of it. -/
  left : Nat
  /-- The text, without the part that dots replace at its start. -/
  chars : List Char
  /-- Columns of the part that dots replace at the start. -/
  coveredLeft : Nat
  /-- Characters that dots replace at the end, if the line goes on there. -/
  coveredRight : Option Nat
  deriving DecidableEq, Repr

/-- The shortest start of a text on which dots can be written. -/
def coverOfDots (cs : List Char) : List Char :=
  cs.take (cs.length - (skipTo dots.length cs).2.length)

/-- The part of a line in the window. -/
def excerpt (w : Window) (chars : List Char) : Excerpt :=
  let width := columns chars
  let left := min w.left width
  let right := if width - w.left ≤ w.room then width else min width w.right
  let (skipped, rest) := skipTo left chars
  let seen := fitting (right - left) rest
  let covered := if 0 < w.left then coverOfDots seen else []
  { left := max left skipped
    chars := seen.drop covered.length
    coveredLeft := columns covered
    coveredRight := if right < width then some (coverOfDots seen.reverse).length else none }

end Window

end ScriptTree.Snippet
