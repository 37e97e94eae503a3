import ScriptTree.Diagnostic.Filter
import ScriptTree.Grammar.Declaration
import ScriptTree.Token.Restore
import ScriptTree.Tree.Dump

/-!
# Parsing

`parse` reads a source text into a lossless syntax tree and the diagnostics on the way.  A text
with errors still has a tree, unless recovery is off: then the first error ends the parse
(`ParseError.failed`).  The limits on consumed tokens and on nesting end it, too.

`parseTokens` starts from tokens that were read before.
-/

namespace ScriptTree

/-- How to parse. -/
structure Options where
  /-- Go on after an error? -/
  recovery : Bool
  /-- Bound on the number of consumed tokens. -/
  stepLimit : Option Nat
  /-- Bound on the nesting of rules. -/
  depthLimit : Option Nat
  deriving DecidableEq, Repr

namespace Options

/-- Nesting allowed unless something else is asked for. -/
def defaultDepthLimit : Nat := 512

/-- Recovery, any number of tokens, and the usual depth. -/
def default : Options := ⟨true, none, some defaultDepthLimit⟩

/-- Without recovery. -/
def strict : Options := { default with recovery := false }

instance : Inhabited Options := ⟨default⟩

end Options

/-- A tree and what was reported while it was built. -/
structure Parsed where
  tree : Tree
  diagnostics : List Diagnostic
  deriving DecidableEq, Repr

/-- Why there is no tree. -/
inductive ParseError where
  /-- A limit was exceeded. -/
  | exhausted (resource : Exhaustion)
  /-- Without recovery, there was an error. -/
  | failed (diagnostics : List Diagnostic)
  deriving DecidableEq, Repr

/-- The wording of an error. -/
def ParseError.message : ParseError → String
  | exhausted .steps => "execution limit exceeded"
  | exhausted .depth => "recursion limit exceeded"
  | failed diagnostics =>
    "parsing failed with " ++ toString (diagnostics.countP (·.isError)) ++ " errors"

/-- The outcome of a parse. -/
abbrev Outcome := Except Fault (Except ParseError Parsed)

/-- A bound on the nesting of rule calls that a list of tokens can lead to. -/
def callBudget (tokens : List Token) : Nat := 64 * ((Token.significant tokens).length + 2)

/-- What the last state of a parse amounts to. -/
def State.finish (source : String) (s : State) : Outcome :=
  match s.exhausted with
  | some resource => .ok (.error (.exhausted resource))
  | none =>
    if s.halted then .ok (.error (.failed s.diagnostics.toList))
    else
      let tree := Tree.node .program s.frame.toList
      if tree.text = source then .ok (.ok ⟨tree, s.diagnostics.toList⟩)
      else .error .lossy

/-- Parse the tokens of a source, trivia included. -/
def parseLexed (o : Options) (source : String) (tokens : List Token) : Outcome := do
  let setting : Setting := ⟨Text.byteLength source.toList, o.recovery, o.depthLimit⟩
  let (_, s) ← Rule.program.run setting (callBudget tokens) (.initial tokens o.stepLimit)
  s.finish source

/-- Parse a source text. -/
def parse (o : Options) (source : String) : Outcome := parseLexed o source (Token.lex source)

/-- Parse a source text of which some tokens are given; the rest is read anew. -/
def parseTokens (o : Options) (source : String) (marks : List Mark) : Outcome := do
  parseLexed o source (← Token.restore source marks)

end ScriptTree
