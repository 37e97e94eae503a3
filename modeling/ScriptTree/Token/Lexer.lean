import ScriptTree.Lexicon
import ScriptTree.Pattern.Munch
import ScriptTree.Token
import ScriptTree.TokenClass

/-!
# Reading tokens

A source text is cut into pieces by longest match (`Piece.scan`), with two corrections:

* characters that no pattern matches are gathered into runs (`Piece.gather`);
* a sign that was read as part of a number, though an operand stands before it, is a minus of its
  own (`Piece.splitSigns`), so that `a-1` is a difference and not two operands in a row.

`Token.lex` gives the pieces their places.  Nothing of the text is left out.
-/

namespace ScriptTree

/-- A piece of text with its kind, without its place. -/
structure Piece where
  kind : Kind
  chars : List Char
  deriving DecidableEq, Repr

namespace Piece

/-- Cut a text by longest match.  A character at which nothing matches is a piece by itself. -/
def scan : List Char → List Piece
  | [] => []
  | c :: cs =>
    match Pattern.munch Lexicon.entries (c :: cs) with
    -- A match of no characters would not move on, so it counts as none.
    | some (kind, n + 1) => ⟨kind, c :: cs.take n⟩ :: scan (cs.drop n)
    | _ => ⟨.garbage, [c]⟩ :: scan cs
termination_by cs => cs.length
decreasing_by
  · simp only [List.length_drop, List.length_cons]; omega
  · simp

/-- Join neighbouring pieces of garbage. -/
def gather : List Piece → List Piece
  | [] => []
  | p :: ps =>
    match p.kind, gather ps with
    | .garbage, ⟨.garbage, cs⟩ :: ps => ⟨.garbage, p.chars ++ cs⟩ :: ps
    | _, ps => p :: ps

/-- Is the piece a number with a sign? -/
def isSigned (p : Piece) : Bool := p.kind == .number && p.chars.head? == some '-'

/-- Cut the sign off each number that follows an operand.  `last` is the kind of the last piece
    that the grammar sees. -/
def splitSigns (last : Option Kind) : List Piece → List Piece
  | [] => []
  | p :: ps =>
    -- Blanks and comments between the operand and the number do not matter.
    let next := if p.kind.isSkipped then last else some p.kind
    if p.isSigned && last.any TokenSet.operandEnd.contains then
      ⟨.minus, ['-']⟩ :: ⟨.number, p.chars.tail⟩ :: splitSigns next ps
    else p :: splitSigns next ps

/-- The pieces of a text. -/
def ofText (cs : List Char) : List Piece := splitSigns none (gather (scan cs))

/-- Give pieces that stand one after the other their places. -/
def place (start : Nat) (here : LineCol) : List Piece → List Token
  | [] => []
  | p :: ps =>
    let token : Token := ⟨p.kind, String.ofList p.chars, start, here⟩
    token :: place token.stop (here.advance token.text) ps

end Piece

namespace Token

/-- The tokens of a source text, trivia and errors included. -/
def lex (source : String) : List Token := Piece.place 0 .origin (Piece.ofText source.toList)

/-- The tokens of a source text that the grammar sees, and the reports on what no token could be
    made of. -/
def tokenize (source : String) : List Token × List Diagnostic :=
  let tokens := lex source
  (significant tokens, lexDiagnostics tokens)

end Token

end ScriptTree
