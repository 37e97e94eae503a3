import ScriptTree.Text.Bytes

/-!
# Lines and columns

A `LineCol` is a place in a text: lines and columns count from one, and columns count characters,
not bytes.  There are two ways to find the place of an offset.

* `LineCol.advance` walks over the text before it.
* `LineIndex.lineCol` looks it up among the line starts.

`LineCol.advance?` is the walk with counters of 32 bits.
-/

namespace ScriptTree

open Text

/-- A place in a text, counted from one. -/
structure LineCol where
  line : Nat
  column : Nat
  deriving DecidableEq, Repr

namespace LineCol

/-- The place before the first character. -/
def origin : LineCol := ⟨1, 1⟩

instance : Inhabited LineCol := ⟨origin⟩

/-- The place after one more character. -/
def step (p : LineCol) (c : Char) : LineCol :=
  if c = '\n' then ⟨p.line + 1, 1⟩ else ⟨p.line, p.column + 1⟩

/-- The place after a text. -/
def advance (p : LineCol) (text : String) : LineCol := text.toList.foldl step p

/-- The first number that does not fit into 32 bits. -/
def counterLimit : Nat := 4294967296

/-- Places whose counters fit into 32 bits. -/
def InRange (p : LineCol) : Prop := p.line < counterLimit ∧ p.column < counterLimit

instance (p : LineCol) : Decidable p.InRange := inferInstanceAs (Decidable (_ ∧ _))

/-- The place after a text, unless a counter overflows on the way. -/
def advance? (p : LineCol) (text : String) : Option LineCol :=
  text.toList.foldlM (fun p c => if (p.step c).InRange then some (p.step c) else none) p

end LineCol

/-- A text with the offsets at which its lines start. -/
structure LineIndex where
  text : List Char
  starts : List Nat
  deriving Repr

namespace LineIndex

/-- Offsets just after the line feeds of a text that begins at an offset. -/
def startsFrom (offset : Nat) : List Char → List Nat
  | [] => []
  | c :: cs =>
    let next := offset + c.utf8Size
    if c = '\n' then next :: startsFrom next cs else startsFrom next cs

/-- The index of a text. -/
def ofText (source : String) : LineIndex :=
  ⟨source.toList, 0 :: startsFrom 0 source.toList⟩

/-- Number of lines; a final line feed starts an empty one. -/
def lineCount (index : LineIndex) : Nat := index.starts.length

/-- The place of an offset.  An offset past the end counts as the end, and one inside a character
    as the start of that character. -/
def lineCol (index : LineIndex) (offset : Nat) : LineCol :=
  let stop := floorBoundary index.text offset
  let before := index.starts.takeWhile (· ≤ stop)
  let start := before.getLast?.getD 0
  ⟨before.length, ((sliceBytes index.text start stop).getD []).length + 1⟩

end LineIndex

end ScriptTree
