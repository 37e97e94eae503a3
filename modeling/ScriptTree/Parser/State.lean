import ScriptTree.Fault
import ScriptTree.TokenClass
import ScriptTree.Tree

/-!
# The state of a parse

A `State` holds the tokens that are still to be read, the children of the node under construction,
and what has been reported.  The operations of this module are all that a grammar can do to it.

Tokens that the grammar does not see wait in `pending` until the next node is opened or the next
token is consumed; `drain` then places them.  So the kinds and texts of `frame`, `pending` and
`rest`, in this order, are always those of the tokens at the start.

Every lookahead costs one unit of `patience`, and consuming a token or changing the depth restores
it (`look`, `bump`, `enter`, `leave`).  A grammar that only looks is a `Fault`.
-/

namespace ScriptTree

/-- Pairs of delimiters. -/
inductive Delimiter where
  | curly
  | paren
  | bracket
  deriving DecidableEq, Repr

namespace Delimiter

/-- The opening token. -/
def opener : Delimiter → Kind
  | curly => .lCurly
  | paren => .lParen
  | bracket => .lBracket

/-- The closing token. -/
def closer : Delimiter → Kind
  | curly => .rCurly
  | paren => .rParen
  | bracket => .rBracket

/-- The problem that the closing token is missing. -/
def unclosed : Delimiter → Problem
  | curly => .unclosedBlock
  | paren => .unclosedParen
  | bracket => .unclosedBracket

end Delimiter

/-- Resources of a parse that can run out. -/
inductive Exhaustion where
  /-- More tokens were consumed than allowed. -/
  | steps
  /-- Rules were nested more deeply than allowed. -/
  | depth
  deriving DecidableEq, Repr

/-- What the grammar finds wrong at the current token. -/
structure Complaint where
  problem : Problem
  detail : Option String
  expected : Option String
  deriving DecidableEq, Repr

/-- What stays the same during a parse. -/
structure Setting where
  /-- Offset of the end of the source. -/
  sourceEnd : Nat
  /-- Go on after an error? -/
  recovery : Bool
  /-- Bound on the nesting of rules. -/
  depthLimit : Option Nat
  deriving DecidableEq, Repr

/-- Lookaheads in a row that are allowed. -/
def fullPatience : Nat := 256

/-- The state of a parse. -/
structure State where
  /-- Tokens still to be read. -/
  rest : List Token
  /-- How many tokens have been read. -/
  index : Nat
  /-- Skipped tokens that have been read but not placed. -/
  pending : List Token
  /-- Children of the node under construction. -/
  frame : Array Tree
  /-- Reports so far. -/
  diagnostics : Array Diagnostic
  /-- Nesting of rules. -/
  depth : Nat
  /-- Offset of the last report of the grammar. -/
  reported : Option Nat
  /-- Open delimiters with the spans of their openers, innermost first. -/
  delimiters : List (Delimiter × Span)
  /-- Lookaheads left. -/
  patience : Nat
  /-- Tokens that may still be consumed. -/
  steps : Option Nat
  /-- An error ended a parse without recovery. -/
  halted : Bool
  /-- What ran out first. -/
  exhausted : Option Exhaustion
  /-- Offset after the last consumed token. -/
  consumedTo : Option Nat
  deriving Repr

namespace State

/-- The state before the first token. -/
def initial (tokens : List Token) (steps : Option Nat) : State where
  rest := tokens
  index := 0
  pending := []
  frame := #[]
  diagnostics := #[]
  depth := 0
  reported := none
  delimiters := []
  patience := fullPatience
  steps := steps
  halted := false
  exhausted := none
  consumedTo := none

/-! ## Reports -/

/-- Add a report.  Without recovery an error halts the parse. -/
def emit (g : Setting) (d : Diagnostic) (s : State) : State :=
  { s with
    diagnostics := s.diagnostics.push d
    halted := s.halted || !g.recovery && d.isError }

/-- Add a report about an offset, unless the parse has halted or the last report of the grammar was
    about the same offset. -/
def reportAt (g : Setting) (offset : Nat) (d : Diagnostic) (s : State) : State :=
  if s.halted || s.reported == some offset then s
  else emit g d { s with reported := some offset }

/-! ## Reading tokens -/

/-- Pass over one skipped token; lexical errors are reported on the way. -/
def pass (g : Setting) (t : Token) (s : State) : State :=
  -- Not `reportAt`, since `reported` is about the reports of the grammar only.
  let s := if t.kind.isLexError && !s.halted then s.emit g t.lexDiagnostic else s
  { s with index := s.index + 1, pending := s.pending ++ [t] }

/-- Pass over the skipped tokens at the front of the input. -/
def passAll (g : Setting) (s : State) : List Token → State
  | [] => { s with rest := [] }
  | t :: ts => if t.kind.isSkipped then passAll g (s.pass g t) ts else { s with rest := t :: ts }

/-- Make the next significant token the current one. -/
def skip (g : Setting) (s : State) : State := passAll g s s.rest

/-- The `n`-th significant token of a list, from zero. -/
def nthSignificant : List Token → Nat → Option Token
  | [], _ => none
  | t :: ts, n =>
    if t.kind.isSkipped then nthSignificant ts n
    else
      match n with
      | 0 => some t
      | n + 1 => nthSignificant ts n

/-- The search for a significant token finds the one at that place among them. -/
theorem nthSignificant_eq_getElem? (ts : List Token) (n : Nat) :
    nthSignificant ts n = (Token.significant ts)[n]? := by
  induction ts generalizing n with
  | nil => simp [nthSignificant, Token.significant]
  | cons t ts ih =>
    unfold nthSignificant
    by_cases h : t.kind.isSkipped
    · simp [h, ih, Token.significant]
    · cases n <;> simp [h, ih, Token.significant]

/-- The kind of the `n`-th significant token ahead, or `error` past the end. -/
def look (g : Setting) (n : Nat) (s : State) : Except Fault (Kind × State) :=
  let s := s.skip g
  if s.patience = 0 then .error (.stalled s.index)
  else
    let kind := ((nthSignificant s.rest n).map (·.kind)).getD .error
    .ok (kind, { s with patience := s.patience - 1 })

/-- The span of the token at the front, or the end of the source. -/
def frontSpan (g : Setting) (s : State) : Span :=
  match s.rest with
  | [] => .point g.sourceEnd
  | t :: _ => t.span

/-- The text of the token at the front. -/
def frontText (s : State) : String :=
  match s.rest with
  | [] => ""
  | t :: _ => t.text

/-- Is there nothing more to read, or did the parse come to an end otherwise?  To be asked after
    `skip`. -/
def isStopped (s : State) : Bool := s.rest.isEmpty || s.exhausted.isSome || s.halted

/-! ## Building the tree -/

/-- Place the pending tokens. -/
def drain (s : State) : State :=
  { s with frame := s.frame ++ (s.pending.map Tree.ofToken).toArray, pending := [] }

/-- Count a consumed token. -/
def spend (s : State) : State :=
  match s.steps with
  | none => s
  | some 0 => { s with exhausted := s.exhausted <|> some .steps }
  | some (n + 1) => { s with steps := some n }

/-- Consume the current token. -/
def bump (g : Setting) (s : State) : Except Fault State :=
  let s := s.skip g
  match s.rest with
  | [] => .error .pastEnd
  | t :: ts =>
    -- Steps that have run out do not keep the token back: the rules see it at `isStopped`.
    let s := s.spend.drain
    .ok { s with
      rest := ts
      index := s.index + 1
      frame := s.frame.push (.ofToken t)
      patience := fullPatience
      consumedTo := some t.stop }

/-- Consume the current token if it has a given kind. -/
def eat (g : Setting) (kind : Kind) (s : State) : Except Fault (Bool × State) := do
  let (found, s) ← s.look g 0
  if found = kind then return (true, ← s.bump g) else return (false, s)

/-! ## Complaints -/

/-- What stands at the current token, for messages. -/
def describeFront (g : Setting) (s : State) : Except Fault (String × State) :=
  let s := s.skip g
  match s.rest with
  | [] => .ok ("end of file", s)
  | t :: _ => do
    let (kind, s) ← s.look g 0
    -- A text that breaks the line would break the message too.
    return (if t.text.toList.contains '\n' then kind.describe else "`" ++ t.text ++ "`", s)

/-- The region of a report at the current token: from the innermost open delimiter to the end. -/
def region (g : Setting) (s : State) : Option Span :=
  match s.delimiters with
  | [] => some (s.frontSpan g)
  | (_, opener) :: _ => Span.make? opener.start g.sourceEnd

/-- Report a complaint about the current token. -/
def complain (g : Setting) (x : Complaint) (s : State) : Except Fault State := do
  let (found, s) ← s.describeFront g
  let span := s.frontSpan g
  let some region := s.region g | throw .backwards
  return s.reportAt g span.start
    { problem := x.problem, span, region, message := x.problem.message x.detail,
      expected := x.expected, found := some found, related := [] }

/-- Consume a token of a given kind, or complain that it is missing. -/
def expect (g : Setting) (kind : Kind) (what : String) (s : State) :
    Except Fault (Bool × State) := do
  let (eaten, s) ← s.eat g kind
  if eaten then return (true, s)
  else return (false, ← s.complain g ⟨.expectedToken, some what, some kind.describe⟩)

/-- Report a problem that is only about the current token itself. -/
def remark (g : Setting) (problem : Problem) (s : State) : State :=
  let s := s.skip g
  let span := s.frontSpan g
  s.reportAt g span.start (.ofProblem problem span)

/-! ## Nesting -/

/-- Go one level deeper, unless that is too deep. -/
def enter (g : Setting) (s : State) : Bool × State :=
  if g.depthLimit.any (· ≤ s.depth) then
    (false, { s with exhausted := s.exhausted <|> some .depth })
  else (true, { s with depth := s.depth + 1, patience := fullPatience })

/-- Come back from one level. -/
def leave (s : State) : State := { s with depth := s.depth - 1, patience := fullPatience }

/-! ## Delimiters -/

/-- Note the current token as an opener and consume it. -/
def openDelimiter (g : Setting) (d : Delimiter) (s : State) : Except Fault State :=
  let s := s.skip g
  bump g { s with delimiters := (d, s.frontSpan g) :: s.delimiters }

/-- Report that a delimiter is still open at the end of the source. -/
def reportUnclosed (g : Setting) (d : Delimiter) (construct : String) (opener : Span) (s : State) :
    Except Fault State := do
  let here := s.frontSpan g
  -- The span starts at the opener, but it is the end of the source that counts as reported.
  let some span := Span.make? opener.start here.stop | throw .backwards
  return s.reportAt g here.start
    { Diagnostic.ofProblem d.unclosed span with
      found := some "end of file"
      related := [⟨opener, construct ++ " started here"⟩] }

/-- Take the innermost delimiter off and consume its closer.  A closer that is missing is reported
    for the whole region at the end of the source, and at the current token otherwise. -/
def closeDelimiter (g : Setting) (d : Delimiter) (construct : String) (s : State) :
    Except Fault State := do
  let innermost := s.delimiters.head?
  if innermost.any (·.1 ≠ d) then throw .unpaired
  -- The delimiter is off the stack before anything is reported, so regions are those outside it.
  let (closed, s) ← eat g d.closer { s with delimiters := s.delimiters.tail }
  if closed then return s
  let s := s.skip g
  match innermost, s.rest with
  | some (_, opener), [] => s.reportUnclosed g d construct opener
  | _, _ =>
    let what := d.closer.describe ++ " to close the " ++ construct
    return (← s.expect g d.closer what).2

/-- Report a problem of the text from an opener to the last consumed token. -/
def remarkSince (g : Setting) (problem : Problem) (opener : Span) (s : State) :
    Except Fault State := do
  let some span := Span.make? opener.start (s.consumedTo.getD opener.stop) | throw .backwards
  return s.reportAt g span.start (.ofProblem problem span)

end State

end ScriptTree
