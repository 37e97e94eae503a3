import ScriptTree.Fault
import ScriptTree.Token.Lexer

/-!
# Tokens from their spans

`Token.restore` rebuilds the full token list of a source from some of its tokens, given by kind and
span only.  What lies between them is read anew, so white space, comments and lexical errors that
were dropped come back.
-/

namespace ScriptTree

/-- A token by kind and span, without its text. -/
structure Mark where
  kind : Kind
  span : Span
  deriving DecidableEq, Repr

/-- The mark of a token. -/
def Token.mark (t : Token) : Mark := ⟨t.kind, t.span⟩

namespace Mark

/-- Kinds and widths of the tokens between two offsets. -/
def fill (source : List Char) (start stop : Nat) : Except Fault (List (Kind × Nat)) :=
  if start < stop then
    match Text.sliceBytes source start stop with
    | some gap => .ok ((Piece.ofText gap).map fun p => (p.kind, Text.byteLength p.chars))
    | none => .error .noSlice
  else .ok []

/-- Kinds and widths of all tokens from an offset on. -/
def tiles (source : List Char) (cursor : Nat) : List Mark → Except Fault (List (Kind × Nat))
  | [] => fill source cursor (Text.byteLength source)
  | m :: ms => do
    -- Marks may touch but not overlap or go back.
    if m.span.start < cursor then throw .disorder
    let gap ← fill source cursor m.span.start
    let later ← tiles source m.span.stop ms
    return gap ++ (m.kind, m.span.length) :: later

end Mark

/-- Cut a text into pieces of given kinds and widths. -/
def Piece.cut : List Char → List (Kind × Nat) → Except Fault (List Piece)
  | _, [] => .ok []
  | cs, (kind, width) :: tiles =>
    match Text.splitBytes cs width with
    | some (piece, rest) => do return ⟨kind, piece⟩ :: (← Piece.cut rest tiles)
    | none => .error .noSlice

/-- All tokens of a source of which some are given, in order. -/
def Token.restore (source : String) (marks : List Mark) : Except Fault (List Token) := do
  let tiles ← Mark.tiles source.toList 0 marks
  let pieces ← Piece.cut source.toList tiles
  return Piece.place 0 .origin pieces

end ScriptTree
