import ScriptTree.Diagnostic
import ScriptTree.Kind
import ScriptTree.Position
import ScriptTree.Text.Quoted

/-!
# Tokens

A `Token` is a piece of a source text with its kind and its place.
-/

namespace ScriptTree

/-- A piece of a source text. -/
structure Token where
  kind : Kind
  text : String
  /-- Offset of the first byte. -/
  start : Nat
  /-- Place of the first character. -/
  place : LineCol
  deriving DecidableEq, Repr

namespace Token

/-- Number of bytes. -/
def width (t : Token) : Nat := Text.byteLength t.text.toList

/-- Offset after the last byte. -/
def stop (t : Token) : Nat := t.start + t.width

/-- The offsets of the token. -/
def span (t : Token) : Span := ⟨t.start, t.stop, Nat.le_add_right _ _⟩

/-- The report on a token that is a lexical error. -/
def lexDiagnostic (t : Token) : Diagnostic :=
  match t.kind with
  | .malformedString => .ofProblem .malformedString t.span
  | .unterminatedComment => .ofProblem .unterminatedComment t.span
  | _ =>
    (Diagnostic.ofProblem .unrecognizedCharacter t.span).withDetail
      ("`" ++ Text.shown t.text ++ "`")

/-- One report for each lexical error, in order. -/
def lexDiagnostics (ts : List Token) : List Diagnostic :=
  (ts.filter (·.kind.isLexError)).map lexDiagnostic

/-- The tokens that the grammar sees. -/
def significant (ts : List Token) : List Token := ts.filter (!·.kind.isSkipped)

/-- The texts of tokens, one after the other. -/
def spelling (ts : List Token) : String := String.join (ts.map (·.text))

end Token

end ScriptTree
