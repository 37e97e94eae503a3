import ScriptTree.Diagnostic
import ScriptTree.Snippet.Layout

/-!
# Diagnostics beside their source

`Snippet.render` shows a diagnostic under its message with the source lines it is about.  The span
is marked by carets, or by a bar in the margin if it covers several lines; related places and
labels stand beside the marks.

The spans must be made for the source.  One that ends more than one byte after it, or inside a
character, is a `Fault`.
-/

namespace ScriptTree.Snippet

open Text

/-- How snippets are shown. -/
structure Options where
  /-- Name of the source. -/
  path : Option String
  colored : Bool
  deriving DecidableEq, Repr

/-- An empty span is widened by one byte, so that something can be marked. -/
def widen (limit : Nat) (s : Span) : Span :=
  if h : s.start = s.stop ∧ s.start < limit then ⟨s.start, s.start + 1, by omega⟩ else s

/-- What stands beside the marks. -/
def primaryLabel (d : Diagnostic) : String :=
  match d.expected, d.found with
  | some expected, some found => "expected " ++ expected ++ ", found " ++ found
  | none, some found => "found " ++ found
  | _, none => d.message

/-- What is marked for a diagnostic, the primary place first. -/
def notes (limit : Nat) (d : Diagnostic) : List Note :=
  let primary : Note := ⟨widen limit d.span, display (primaryLabel d).toList, true⟩
  primary :: d.related.map fun r => ⟨widen limit r.span, display r.message.toList, false⟩

/-- Does the note end so far after the source that it cannot be shown?  An empty note is shown at
    the end of the source. -/
def Note.isOutside (limit : Nat) (n : Note) : Bool :=
  n.span.start != n.span.stop && limit + 1 < n.span.stop

/-- The number of the line on which the last note ends.  A line break belongs to the line before
    it. -/
def lastNumber (lines : List SourceLine) (notes : List Note) : Nat :=
  let stop := Window.greatest (notes.map (·.span.stop))
  max 1 (lines.countP (·.start < stop))

/-- The title: severity and message.  Further lines of the message are aligned with the first. -/
def drawTitle (d : Diagnostic) (c : Canvas) : Canvas :=
  let severity := d.severity.render.toList
  let c := (c.append 0 .primary severity).append 0 .bold [':', ' ']
  let message := (d.message.splitOn "\n").map fun line => display line.toList
  let line (c : Canvas) (text : List Char) (y : Nat) : Canvas :=
    let c := if y = 0 then c else c.append y .plain (List.replicate (severity.length + 2) ' ')
    c.append y .bold text
  message.zipIdx.foldl (fun c (text, y) => line c text y) c

/-- The line that says where the primary place is. -/
def drawOrigin (numberWidth : Nat) (path : String) (lines : List MarkedLine) (c : Canvas) :
    Canvas :=
  let strokes := lines.flatMap fun l => l.strokes.map fun s => (l.number, s)
  match strokes.find? (·.2.isPrimary) with
  | none => c
  | some (number, s) =>
    let place := path ++ ":" ++ toString number ++ ":" ++ toString (s.start.chars + 1)
    let y := c.height
    let c := c.append y .plain (List.replicate numberWidth ' ')
    (c.append y .aside "--> ".toList).append y .plain place.toList

/-- Draw a diagnostic beside the lines of a source. -/
def draw (o : Options) (lines : List SourceLine) (d : Diagnostic) : Except Fault Canvas := do
  let limit := SourceLine.sourceEnd lines
  let all := notes limit d
  if all.any (Note.isOutside limit) then throw .noSlice
  let (marked, bars) ← MarkedLine.ofNotes lines all
  let numberWidth := (toString (lastNumber lines all)).length
  let window := Window.ofLines (Grid.codeColumn numberWidth bars) marked
  let g : Grid := ⟨numberWidth, bars, window⟩
  let c := drawTitle d .empty
  let c := (o.path.map fun path => drawOrigin numberWidth path marked c).getD c
  let c := c.put c.height g.separator .aside '|'
  return c.drawLines g lines [] marked

/-- A diagnostic beside the lines of its source. -/
def render (o : Options) (lines : List SourceLine) (d : Diagnostic) : Except Fault String :=
  (draw o lines d).map (Canvas.render ⟨o.colored, d.severity⟩)

/-- Diagnostics beside their source, one after the other. -/
def renderAll (o : Options) (source : String) (ds : List Diagnostic) : Except Fault String := do
  return "\n".intercalate (← ds.mapM (render o (SourceLine.split source.toList)))

end ScriptTree.Snippet
