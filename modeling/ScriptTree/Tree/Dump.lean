import ScriptTree.Text.Quoted
import ScriptTree.Tree

/-!
# Tree dumps

A dump shows a tree with one element on a line, indented by depth: the kind of a node, or the kind
and the quoted text of a leaf.
-/

namespace ScriptTree.Tree

/-- What a dump shows. -/
structure DumpOptions where
  /-- Show white space and comments. -/
  trivia : Bool
  /-- Show the offsets of each element. -/
  spans : Bool
  deriving DecidableEq, Repr

/-- The start of a line: indentation, kind, and offsets if they are shown. -/
def dumpHead (o : DumpOptions) (depth start width : Nat) (kind : Kind) : String :=
  "".pushn ' ' (2 * depth) ++ kind.name ++
    if o.spans then " [" ++ toString start ++ ".." ++ toString (start + width) ++ "]" else ""

mutual

/-- The lines of an element that starts at an offset. -/
def dumpLines (o : DumpOptions) (depth start : Nat) : Tree → List String
  | leaf kind text =>
    if kind.isTrivia && !o.trivia then []
    else
      [dumpHead o depth start (Text.byteLength text.toList) kind ++ " " ++ Text.quoted text]
  | node kind children =>
    dumpHead o depth start (widthOf children) kind :: dumpLinesOf o (depth + 1) start children

/-- The lines of elements that follow each other. -/
def dumpLinesOf (o : DumpOptions) (depth start : Nat) : List Tree → List String
  | [] => []
  | t :: ts => dumpLines o depth start t ++ dumpLinesOf o depth (start + t.width) ts

end

/-- The dump of a tree; each line ends in a line feed. -/
def dump (o : DumpOptions) (t : Tree) : String :=
  String.join ((dumpLines o 0 0 t).map (· ++ "\n"))

end ScriptTree.Tree
