import ScriptTree.Snippet.Source
import ScriptTree.Text.Blank

/-!
# Strokes on source lines

A `Note` is a span of the source with a label.  If the span stays on one line, a `Stroke` under
that line marks it.  Otherwise a `Bar` in the margin connects its first with its last line, and the
bar has strokes on the lines that are shown of it.

`MarkedLine.ofNotes` finds the lines that are shown for some notes, with their strokes.
-/

namespace ScriptTree.Snippet

open Text

/-- A part of the source to be marked. -/
structure Note where
  span : Span
  label : List Char
  isPrimary : Bool
  deriving DecidableEq, Repr

/-- What a stroke is a part of.  Bars stand side by side, and `depth` counts them from one. -/
inductive Role where
  /-- A span on one line. -/
  | inline
  /-- The first line of a bar. -/
  | opening (depth : Nat)
  /-- A line that a bar passes by. -/
  | passing (depth : Nat)
  /-- The last line of a bar. -/
  | closing (depth : Nat)
  deriving DecidableEq, Repr

/-- A mark on a source line. -/
structure Stroke where
  role : Role
  start : Place
  /-- The column after the last one. -/
  stopColumn : Nat
  label : Option (List Char)
  isPrimary : Bool
  deriving DecidableEq, Repr

namespace Stroke

/-- The first column. -/
def column (s : Stroke) : Nat := s.start.column

/-- Is there something to be read beside the stroke? -/
def hasLabel (s : Stroke) : Bool := s.label.any (!·.isEmpty)

/-- Does a bar pass by without starting or ending here? -/
def isPassing (s : Stroke) : Bool :=
  match s.role with
  | .passing _ => true
  | _ => false

/-- Does a bar start here? -/
def isOpening (s : Stroke) : Bool :=
  match s.role with
  | .opening _ => true
  | _ => false

/-- The depth of the bar that starts or ends here. -/
def depth? (s : Stroke) : Option Nat :=
  match s.role with
  | .opening depth | .closing depth => some depth
  | _ => none

/-- Does a horizontal line lead from the stroke to a bar? -/
def isTied (s : Stroke) : Bool := s.depth?.isSome

/-- Number of columns. -/
def width (s : Stroke) : Nat := s.stopColumn - s.column

/-- Does one of two strokes start inside the other, if the first is longer by some columns? -/
def meets (s t : Stroke) (more : Nat) : Bool :=
  (t.column ≤ s.column && s.column < t.stopColumn)
    || (s.column ≤ t.column && t.column < s.stopColumn + more)

end Stroke

/-! ## Bars -/

/-- A span over several lines. -/
structure Bar where
  start : Place
  stop : Place
  label : List Char
  isPrimary : Bool
  depth : Nat
  /-- Another bar has the same ends, and this one only adds its label to the other's. -/
  isDoubled : Bool
  deriving DecidableEq, Repr

namespace Bar

/-- Do two bars have the same ends? -/
def sameEnds (a b : Bar) : Bool := a.start == b.start && a.stop == b.stop

/-- Is there a line that both bars have? -/
def meets (a b : Bar) : Bool :=
  (b.start.line ≤ a.start.line && a.start.line ≤ b.stop.line)
    || (a.start.line ≤ b.start.line && b.start.line ≤ a.stop.line)

/-- Bars that start earlier come first, and of those the ones that end later. -/
def comesFirst (a b : Bar) : Bool :=
  a.start.line < b.start.line || a.start.line == b.start.line && b.stop.line ≤ a.stop.line

/-- Make room for `b`: the bars at the front that meet it move one level on.  `primaries` are the
    primary bars up to `b`; a bar that has the same ends as one of them becomes primary too. -/
def makeRoom (primaries : List Bar) (b : Bar) : List Bar → List Bar
  | [] => []
  | a :: rest =>
    if !b.sameEnds a && b.meets a then
      { a with depth := a.depth + 1 } :: makeRoom primaries b rest
    else if b.sameEnds a && b != a then
      { a with isDoubled := true } :: makeRoom primaries b rest
    else { a with isPrimary := a.isPrimary || primaries.any a.sameEnds } :: rest

/-- Make room for each of `todo`. -/
def makeRooms (primaries : List Bar) : List Bar → List Bar → List Bar
  | [], bars => bars
  | b :: todo, bars =>
    let primaries := if b.isPrimary then primaries ++ [b] else primaries
    makeRooms primaries todo (makeRoom primaries b bars)

/-- The largest depth. -/
def depthOf (bars : List Bar) : Nat := (bars.map (·.depth)).foldl max 0

/-- Bars side by side.  Those that start first are farthest from the source. -/
def arrange (bars : List Bar) : List Bar :=
  let sorted := bars.mergeSort comesFirst
  let placed := makeRooms [] sorted sorted
  placed.map fun b => { b with depth := depthOf placed - b.depth + 1 }

/-- The stroke on the first line. -/
def opening (b : Bar) : Stroke := ⟨.opening b.depth, b.start, b.start.column + 1, none, b.isPrimary⟩

/-- The stroke on a line between. -/
def passing (b : Bar) : Stroke := ⟨.passing b.depth, .origin, 0, none, b.isPrimary⟩

/-- The stroke on the last line, which has the label. -/
def closing (b : Bar) : Stroke :=
  let role := if b.isDoubled then .inline else .closing b.depth
  ⟨role, b.stop.previous, b.stop.column, some b.label, b.isPrimary⟩

/-- Blank lines, comments and lone delimiters say little. -/
def isTelling (chars : List Char) : Bool :=
  let text := ((chars.dropWhile isBlank).reverse.dropWhile isBlank).reverse
  let isComment :=
    "//".toList.isPrefixOf text && !("///".toList.isPrefixOf text || "//!".toList.isPrefixOf text)
  !isComment &&
    !(["", "\x7b", "\x7d", "(", ")", "[", "]"].contains (String.ofList text))

/-- The lines between that are shown for sure: up to three after the first as far as they say
    something, and the one before the last if it does. -/
def linesBetween (lines : List SourceLine) (b : Bar) : List Nat :=
  let first := b.start.line
  let last := b.stop.line
  let telling (number : Nat) : Bool := isTelling (SourceLine.textAt lines number)
  -- The first four lines, without those at their end that say little.
  let middle := min (first + 4) last
  let head := ((List.range' first (middle - first)).reverse.dropWhile (!telling ·)).reverse
  head.drop 1 ++ if middle < last - 1 && telling (last - 1) then [last - 1] else []

/-- The strokes of a bar with the numbers of their lines. -/
def strokes (lines : List SourceLine) (b : Bar) : List (Nat × Stroke) :=
  let others :=
    if b.isDoubled then []
    else (b.start.line, b.opening) :: (b.linesBetween lines).map fun number => (number, b.passing)
  others ++ [(b.stop.line, b.closing)]

end Bar

/-! ## Lines -/

/-- A source line with its strokes. -/
structure MarkedLine where
  number : Nat
  chars : List Char
  /-- By their places, from left to right. -/
  strokes : List Stroke
  deriving DecidableEq, Repr

namespace MarkedLine

/-- The note as a stroke on one line, or as a bar.  A stroke takes at least one column. -/
def classify (lines : List SourceLine) (n : Note) : Except Fault ((Nat × Stroke) ⊕ Bar) := do
  let (start, stop) ← Place.ends lines n.span
  if start.line = stop.line then
    let stopColumn := if start.column = stop.column then stop.column + 1 else stop.column
    return .inl (start.line, ⟨.inline, start, stopColumn, some n.label, n.isPrimary⟩)
  else return .inr ⟨start, stop, n.label, n.isPrimary, 1, false⟩

/-- The strokes of one line, by their places. -/
def ofStrokes (lines : List SourceLine) (strokes : List (Nat × Stroke)) (number : Nat) :
    MarkedLine :=
  let here := (strokes.filter (·.1 == number)).map (·.2)
  let ordered := here.mergeSort fun a b => a.start.isUpTo b.start
  ⟨number, SourceLine.textAt lines number, ordered⟩

/-- The marked lines of some notes, in order, and how many bars stand side by side. -/
def ofNotes (lines : List SourceLine) (notes : List Note) :
    Except Fault (List MarkedLine × Nat) := do
  let marks ← notes.mapM (classify lines)
  let bars := Bar.arrange (marks.filterMap Sum.getRight?)
  let strokes := marks.filterMap Sum.getLeft? ++ bars.flatMap (Bar.strokes lines)
  let numbers := ((strokes.map (·.1)).mergeSort (· ≤ ·)).eraseDups
  return (numbers.map (ofStrokes lines strokes), Bar.depthOf bars)

end MarkedLine

end ScriptTree.Snippet
