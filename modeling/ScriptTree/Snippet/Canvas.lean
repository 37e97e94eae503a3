import ScriptTree.Diagnostic.Problem

/-!
# Styled text on a grid

A `Canvas` is a grid of cells that is written to in any order.  What is written later covers what
was there, and rows and cells that were skipped are blank.  `Canvas.render` turns it into text,
with or without colours.

Cells are described through `getElem?`: `getElem?_put` says that writing a cell changes that cell
and no other, and fixes the length of the row as well.
-/

namespace ScriptTree.Snippet

/-- How a cell looks. -/
inductive Style where
  | plain
  | bold
  /-- Line numbers, margins and places that are not the point. -/
  | aside
  /-- What it is all about. -/
  | primary
  deriving DecidableEq, Repr

/-- A character with its style. -/
structure Cell where
  char : Char
  style : Style
  deriving DecidableEq, Repr

/-- The cell of a place that was skipped. -/
def Cell.blank : Cell := ⟨' ', .plain⟩

/-- A row of cells. -/
abbrev Row := Array Cell

namespace Row

/-- Blank cells up to a width. -/
def extend (row : Row) (width : Nat) : Row := row ++ Array.replicate (width - row.size) .blank

/-- Write one cell. -/
def put (row : Row) (x : Nat) (cell : Cell) : Row := (extend row (x + 1)).setIfInBounds x cell

/-- Write a text from a column on. -/
def write (row : Row) (x : Nat) (style : Style) : List Char → Row
  | [] => row
  | c :: cs => write (put row x ⟨c, style⟩) (x + 1) style cs

/-- Replace the cells between two columns by a text.  Nothing happens unless they exist. -/
def replace (row : Row) (start stop : Nat) (style : Style) (text : List Char) : Row :=
  if start = stop ∨ row.size < start ∨ row.size < stop then row
  else
    let shorter := row.extract 0 start ++ row.extract (stop - text.length) row.size
    write shorter start style text

/-- A row that is extended has blanks behind. -/
private theorem getElem?_extend (row : Row) (width m : Nat) :
    (extend row width)[m]? =
      if m < row.size then row[m]? else if m < width then some .blank else none := by
  unfold extend
  rw [Array.getElem?_append]
  by_cases h : m < row.size
  · rw [if_pos h, if_pos h]
  · have hw : m - row.size < width - row.size ↔ m < width := by omega
    rw [if_neg h, if_neg h, Array.getElem?_replicate]
    simp only [hw]

/-- A cell reads as it was written last; all others are kept, and skipped ones are blank. -/
theorem getElem?_put (row : Row) (x m : Nat) (cell : Cell) :
    (put row x cell)[m]? =
      if m = x then some cell
      else if m < row.size then row[m]? else if m < x then some .blank else none := by
  have hx : x < (extend row (x + 1)).size := by simp [extend]; omega
  unfold put
  rw [Array.getElem?_setIfInBounds]
  by_cases h : x = m
  · subst h; simp [hx]
  · have hm : m < x + 1 ↔ m < x := by omega
    rw [if_neg h, if_neg (Ne.symm h), getElem?_extend]
    simp only [hm]

end Row

/-- Rows of cells. -/
structure Canvas where
  rows : Array Row
  deriving DecidableEq, Repr

namespace Canvas

/-- Nothing at all. -/
def empty : Canvas := ⟨#[]⟩

/-- Number of rows. -/
def height (c : Canvas) : Nat := c.rows.size

/-- Change one row, which is empty if it was not there. -/
def change (c : Canvas) (y : Nat) (f : Row → Row) : Canvas :=
  ⟨(c.rows ++ Array.replicate (y + 1 - c.rows.size) #[]).modify y f⟩

/-- Write one cell. -/
def put (c : Canvas) (y x : Nat) (style : Style) (char : Char) : Canvas :=
  c.change y fun row => Row.put row x ⟨char, style⟩

/-- Write a text from a column on. -/
def write (c : Canvas) (y x : Nat) (style : Style) (text : List Char) : Canvas :=
  c.change y fun row => Row.write row x style text

/-- Write a text after what stands in a row. -/
def append (c : Canvas) (y : Nat) (style : Style) (text : List Char) : Canvas :=
  c.change y fun row => Row.write row row.size style text

/-- Replace a part of a row. -/
def replace (c : Canvas) (y start stop : Nat) (style : Style) (text : List Char) : Canvas :=
  c.change y fun row => Row.replace row start stop style text

/-- Write one character into the columns from `start` to before `stop`. -/
def across (c : Canvas) (y start stop : Nat) (style : Style) (char : Char) : Canvas :=
  if stop ≤ start then c else c.write y start style (List.replicate (stop - start) char)

/-- Write one character into the rows from `top` to before `bottom`. -/
def down (c : Canvas) (top bottom x : Nat) (style : Style) (char : Char) : Canvas :=
  (List.range' top (bottom - top)).foldl (fun c y => c.put y x style char) c

end Canvas

/-! ## Text -/

/-- How cells are written. -/
structure Look where
  colored : Bool
  severity : Severity
  deriving DecidableEq, Repr

/-- The escape sequences that switch a style on. -/
def Style.code (severity : Severity) : Style → String
  | plain => ""
  | bold => "\x1b[1m"
  | aside => "\x1b[1m\x1b[94m"
  | primary =>
    match severity with
    | .error => "\x1b[1m\x1b[91m"
    | .warning => "\x1b[1m\x1b[33m"

/-- The escape sequence after a style. -/
def Style.reset : Style → String
  | plain => ""
  | _ => "\x1b[0m"

/-- Add a cell to a text that ends in a given style. -/
def Look.add (look : Look) (text : String × Style) (cell : Cell) : String × Style :=
  if look.colored && text.2 != cell.style then
    ((text.1 ++ text.2.reset ++ cell.style.code look.severity).push cell.char, cell.style)
  else (text.1.push cell.char, text.2)

/-- A row as text.  Neighbours of one style share their escape sequences. -/
def Look.row (look : Look) (row : Row) : String :=
  let (text, style) := row.foldl look.add ("", .plain)
  text ++ style.reset

/-- The rows as lines of text. -/
def Canvas.render (look : Look) (c : Canvas) : String :=
  "\n".intercalate (c.rows.toList.map look.row)

end ScriptTree.Snippet
