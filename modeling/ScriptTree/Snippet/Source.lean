import ScriptTree.Fault
import ScriptTree.Span
import ScriptTree.Text.Bytes
import ScriptTree.Text.Columns

/-!
# Source lines for display

`SourceLine.split` cuts a source into lines, and `Place.ends` finds the lines and columns between
which a span is marked.  Nothing follows the last line feed, so a place there is shown on the line
before it.
-/

namespace ScriptTree.Snippet

open Text

/-- A line of a source text. -/
structure SourceLine where
  /-- Counted from one. -/
  number : Nat
  /-- The text without the line break. -/
  chars : List Char
  /-- Offset of the first byte. -/
  start : Nat
  /-- Number of bytes of the line break. -/
  breakWidth : Nat
  deriving DecidableEq, Repr

namespace SourceLine

/-- The line of an empty source. -/
def empty : SourceLine := ⟨1, [], 0, 0⟩

/-- Offset after the text. -/
def textEnd (l : SourceLine) : Nat := l.start + byteLength l.chars

/-- Offset after the line break. -/
def stop (l : SourceLine) : Nat := l.textEnd + l.breakWidth

/-- Take off a carriage return at the end. -/
def trimReturn (cs : List Char) : List Char × Nat :=
  if cs.getLast? = some '\r' then (cs.dropLast, 1) else (cs, 0)

/-- The lines of a text that starts with a given number and offset; `line` is what was read of the
    first of them, backwards. -/
def splitFrom (number start : Nat) (line : List Char) : List Char → List SourceLine
  | [] => if line.isEmpty then [] else [⟨number, line.reverse, start, 0⟩]
  | c :: cs =>
    if c = '\n' then
      let (text, returns) := trimReturn line.reverse
      let here : SourceLine := ⟨number, text, start, returns + 1⟩
      here :: splitFrom (number + 1) here.stop [] cs
    else splitFrom number start (c :: line) cs

/-- The lines of a source; an empty source has one empty line. -/
def split (source : List Char) : List SourceLine :=
  if source.isEmpty then [empty] else splitFrom 1 0 [] source

/-- Offset after the last line. -/
def sourceEnd (lines : List SourceLine) : Nat := (lines.getLast?.map stop).getD 0

/-- The line that holds an offset, or the last one. -/
def holding (lines : List SourceLine) (offset : Nat) : SourceLine :=
  ((lines.find? fun l => l.start ≤ offset && offset < l.stop) <|> lines.getLast?).getD empty

/-- The text of the line with a number. -/
def textAt (lines : List SourceLine) (number : Nat) : List Char :=
  ((lines.find? (·.number == number)).map (·.chars)).getD []

/-- The part of the line before an offset, or all of it if the offset is past its text.  The
    offset must not be inside a character. -/
def before (l : SourceLine) (offset : Nat) : Except Fault (List Char) :=
  match splitBytes l.chars (min (offset - l.start) (byteLength l.chars)) with
  | some (head, _) => .ok head
  | none => .error .noSlice

end SourceLine

/-- A place in a source, as it is shown. -/
structure Place where
  /-- Counted from one. -/
  line : Nat
  /-- Characters before it on its line. -/
  chars : Nat
  /-- Columns before it on its line. -/
  column : Nat
  /-- Bytes before it in the source. -/
  offset : Nat
  deriving DecidableEq, Repr

namespace Place

/-- Before every other place. -/
def origin : Place := ⟨0, 0, 0, 0⟩

/-- Is the first place not after the second?  Lines count most, then characters, columns, bytes. -/
def isUpTo (p q : Place) : Bool :=
  p.line < q.line || p.line == q.line &&
    (p.chars < q.chars || p.chars == q.chars &&
      (p.column < q.column || p.column == q.column && p.offset ≤ q.offset))

/-- One step to the left. -/
def previous (p : Place) : Place := ⟨p.line, p.chars - 1, p.column - 1, p.offset - 1⟩

/-- Where a span starts and where it stops.  If it runs over several lines and goes on after the
    text of the last one, it stops one column later there. -/
def ends (lines : List SourceLine) (s : Span) : Except Fault (Place × Place) := do
  let first := SourceLine.holding lines s.start
  let head ← first.before s.start
  let beyond := if first.textEnd < s.start then 1 else 0
  let start : Place := ⟨first.number, head.length + beyond, columns head, s.start⟩
  if s.start = s.stop then return (start, start)
  let last := SourceLine.holding lines s.stop
  let body ← last.before s.stop
  let beyond := if first.number ≠ last.number ∧ last.textEnd < s.stop then 1 else 0
  return (start, ⟨last.number, body.length + beyond, columns body + beyond, s.stop⟩)

end Place

end ScriptTree.Snippet
