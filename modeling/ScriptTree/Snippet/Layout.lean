import ScriptTree.Snippet.Canvas
import ScriptTree.Snippet.Window

/-!
# Drawing marked lines

Each source line is drawn with its number, and below it the strokes and labels of the line.  Labels
that do not fit beside their strokes hang below them, one level for each label, and the lines that
lead to a bar have levels of their own.

Bars are drawn along the lines that they pass by.  A line that is left out between two others is
drawn after all if it is the only one, and dots stand for more than one.
-/

namespace ScriptTree.Snippet

open Text

/-- The columns of a snippet on the screen. -/
structure Grid where
  /-- Width of the line numbers. -/
  numberWidth : Nat
  /-- How many bars stand side by side. -/
  bars : Nat
  window : Window
  deriving DecidableEq, Repr

namespace Grid

/-- The column of the line between numbers and source. -/
def separator (g : Grid) : Nat := g.numberWidth + 1

/-- The column of a bar. -/
def bar (g : Grid) (depth : Nat) : Nat := g.numberWidth + 2 + depth

/-- The first column of the source text, if there are some bars. -/
def codeColumn (numberWidth bars : Nat) : Nat :=
  numberWidth + 3 + if bars = 0 then 0 else bars + 1

/-- The first column of the source text. -/
def code (g : Grid) : Nat := codeColumn g.numberWidth g.bars

end Grid

/-- The style of what belongs to a stroke. -/
def Stroke.style (s : Stroke) : Style := if s.isPrimary then .primary else .aside

/-- The character under the columns of a stroke. -/
def Stroke.glyph (s : Stroke) : Char := if s.isPrimary then '^' else '-'

/-! ## Levels -/

/-- A stroke with the level of its label: zero is beside the stroke, others are below it. -/
structure Hung where
  level : Nat
  stroke : Stroke
  deriving DecidableEq, Repr

namespace Hung

/-- Does another stroke keep the label of `s` from standing beside it?  A stroke of the same
    columns without a label does not. -/
def isBlocked (s t : Stroke) : Bool :=
  t.meets s 0 && !(t.column == s.column && t.stopColumn == s.stopColumn && !t.hasLabel)

/-- Would two strokes get in each other's way if what belongs to `t` was on level `level` like what
    belongs to `s`?  Room for a label counts its bytes. -/
def isCrowded (level : Nat) (s t : Stroke) : Bool :=
  let more := (t.label.map fun label => byteLength label + 2).getD 0
  (t.meets s more && s.hasLabel && t.hasLabel)
    || (s.isTied && (t.hasLabel || t.isTied))
    || (s.hasLabel && t.isTied)
    || (t.meets s more && t.stopColumn ≤ s.stopColumn && t.hasLabel && level == 0)

/-- Give each stroke a level, starting with the rightmost one; also the largest level that was
    reached. -/
def assign (level : Nat) : List Stroke → List Hung × Nat
  | [] => ([], 0)
  | s :: later =>
    let here := if level = 0 && s.hasLabel && later.any (isBlocked s) then 1 else level
    let next := if later.any (isCrowded here s) then here + 1 else here
    let (others, deepest) := assign next later
    (⟨here, s⟩ :: others, max next deepest)

/-- The strokes of a line with their levels, and how many rows there are below the first. -/
def ofStrokes (strokes : List Stroke) : List Hung × Nat :=
  let (hung, deepest) := assign 0 (strokes.mergeSort fun s t => t.column ≤ s.column)
  let rows := if deepest = 0 then 0 else deepest + 1
  if hung.all (·.stroke.isOpening) then
    -- Bars that all start here are led to in the other order, and no label needs a row.
    let top := (hung.map (·.level)).foldl max 0
    (hung.map fun h => { h with level := top - h.level }, rows - 1)
  else (hung, rows)

/-- Long strokes first, so that short ones are drawn over them; of the same width, primary ones
    last. -/
def drawnFirst (a b : Hung) : Bool :=
  b.stroke.width < a.stroke.width
    || a.stroke.width == b.stroke.width && (!a.stroke.isPrimary || b.stroke.isPrimary)

end Hung

/-! ## Lines -/

namespace Canvas

/-- Draw a source line into a row.  Gives the number of columns that are hidden to its left. -/
def drawSource (c : Canvas) (g : Grid) (y number : Nat) (shown : List Char) : Canvas × Nat :=
  let e := g.window.excerpt shown
  let c := if 0 < g.window.left then c.write y g.code .aside Window.dots else c
  let c := c.write y (g.code + e.coveredLeft) .plain e.chars
  let c :=
    match e.coveredRight with
    | none => c
    | some covered =>
      c.write y (g.code + e.coveredLeft + e.chars.length - covered) .aside Window.dots
  let digits := (toString number).toList
  let c := c.write y 0 .aside (List.replicate (g.numberWidth - digits.length) ' ' ++ digits)
  (c.put y g.separator .aside '|', e.left)

/-- Draw the lines that lead from a stroke to its bar and down to its label. -/
def drawTies (c : Canvas) (g : Grid) (y rows left : Nat) (h : Hung) : Canvas :=
  let s := h.stroke
  let x := g.code + s.column - left
  let bottom := y + h.level + 1
  let c :=
    if 0 < h.level && (s.hasLabel || s.isTied) then c.down (y + 1) (bottom + 1) x s.style '|'
    else c
  match s.role with
  | .opening depth =>
    let c := c.put bottom (g.bar depth) s.style ' '
    c.down (bottom + 1) (y + rows + 2) (g.bar depth) s.style '|'
  | .closing depth => c.down y (bottom + 1) (g.bar depth) s.style '|'
  | _ => c

/-- Draw the horizontal line from a stroke to its bar. -/
def drawLead (c : Canvas) (g : Grid) (y left : Nat) (h : Hung) : Canvas :=
  match h.stroke.depth? with
  | some depth =>
    c.across (y + h.level + 1) (g.bar depth + 1) (g.code + h.stroke.column - left)
      h.stroke.style '_'
  | none => c

/-- Draw the label of a stroke. -/
def drawLabel (c : Canvas) (g : Grid) (y left : Nat) (h : Hung) : Canvas :=
  let s := h.stroke
  match s.label with
  | none => c
  | some label =>
    if h.level = 0 then
      let gap := if s.stopColumn = 0 then 2 else 1
      c.write (y + 1) (g.code + (s.stopColumn + gap - left)) s.style label
    else c.write (y + h.level + 2) (g.code + (s.column - left)) s.style label

/-- Draw the stroke itself. -/
def drawStroke (c : Canvas) (g : Grid) (y left : Nat) (h : Hung) : Canvas :=
  let s := h.stroke
  let columns := List.range' s.column (s.stopColumn - s.column)
  let c := columns.foldl (fun c x => c.put (y + 1) (g.code + x - left) s.style s.glyph) c
  if s.isTied || 0 < h.level && s.hasLabel then
    c.put (y + 1) (g.code + s.column - left) s.style s.glyph
  else c

/-- Leave out the middle of a stroke that is much too long for the screen, and of the source line
    above it. -/
def shorten (c : Canvas) (g : Grid) (y : Nat) (strokes : List Stroke) (s : Stroke) : Canvas :=
  let room := g.window.room
  let isAlone := (strokes.erase s).all fun t => !t.meets s 0
  if s.role = .inline ∧ isAlone ∧ 2 * room < s.width ∧ 10 < s.width then
    let kept := max (room / 3) 5
    let c := c.replace y (s.column + kept) (s.stopColumn - kept) .aside Window.dots
    c.replace (y + 1) (s.column + kept) (s.stopColumn - kept) .aside Window.dots
  else c

/-- The bars that start or end on a line. -/
abbrev Ends := List (Nat × Style)

/-- Draw a marked line at the bottom. -/
def drawLine (c : Canvas) (g : Grid) (l : MarkedLine) : Canvas × Ends :=
  let y := c.height
  let shown := display l.chars
  let (c, left) := c.drawSource g y l.number shown
  let openings := l.strokes.filter (·.isOpening)
  let ends (strokes : List Stroke) : Ends :=
    strokes.filterMap fun s => s.depth?.map fun depth => (depth, s.style)
  if l.strokes.all fun s => s.isPassing || s.isOpening && (shown.take s.column).all isBlank then
    -- Bars can start in the source line itself if only blanks are to their right.
    let slash (c : Canvas) (e : Nat × Style) : Canvas := c.put y (g.bar e.1) e.2 '/'
    ((ends openings).foldl slash c, ends openings)
  else
    let (hung, rows) := Hung.ofStrokes l.strokes
    let c := c.down (y + 1) (y + rows + 2) g.separator .aside '|'
    let c := hung.foldl (fun c h => c.drawLead g y left h) c
    let c := hung.foldl (fun c h => c.drawTies g y rows left h) c
    let c := hung.foldl (fun c h => c.drawLabel g y left h) c
    let layered := hung.mergeSort Hung.drawnFirst
    let c := layered.foldl (fun c h => c.drawStroke g y left h) c
    let c := layered.foldl (fun c h => c.shorten g y l.strokes h.stroke) c
    (c, ends (hung.map (·.stroke)))

/-- The bars that go on after a line, and those that start there: each end of a bar that was there
    takes it away, and any other end is a start. -/
def passOn (active : Ends) : Ends → Ends × Ends
  | [] => (active, [])
  | e :: rest =>
    if active.any (·.1 == e.1) then passOn (active.filter (·.1 != e.1)) rest
    else
      let (kept, started) := passOn active rest
      (kept, e :: started)

/-- Draw marked lines at the bottom, with the bars and what stands between the lines. -/
def drawLines (g : Grid) (source : List SourceLine) (active : Ends) :
    List MarkedLine → Canvas → Canvas
  | [], c => c
  | l :: rest, c =>
    let top := c.height
    let (c, ends) := c.drawLine g l
    let (kept, started) := passOn active ends
    let bars (c : Canvas) (top : Nat) (es : Ends) : Canvas :=
      es.foldl (fun c e => c.down top c.height (g.bar e.1) e.2 '|') c
    let c := bars c top kept
    let openings := l.strokes.filterMap fun s =>
      if s.isOpening then s.depth?.map fun depth => (depth, s.style) else none
    let y := c.height
    let c :=
      match rest with
      | [] => c
      | next :: _ =>
        if l.number + 2 < next.number then
          bars (c.write y 0 .aside Window.dots) y (kept ++ openings)
        else if l.number + 2 = next.number then
          let text := display (SourceLine.textAt source (l.number + 1))
          bars (c.drawSource g y (l.number + 1) text).1 y (kept ++ openings)
        else c
    drawLines g source (kept ++ started) rest c

end Canvas

end ScriptTree.Snippet
