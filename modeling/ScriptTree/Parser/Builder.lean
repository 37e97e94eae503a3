import ScriptTree.Parser.State

/-!
# Building a tree step by step

A builder keeps all finished elements in one place and a stack of the nodes that are open, each with
the place where it begins.  A node is opened behind what is finished (`start`), or, once it is known
to be needed, before what was finished since a mark (`startAt`), and the innermost open node is
finished when nothing more belongs to it (`finish`).  Nothing makes these steps come in pairs: a
node that is not open, a mark that is no longer good or a node left open at the end is a `Fault`.

An `Action` is a step of a parse on a builder, or a sequence of such steps.  Levels and delimiters
are entered and left by actions of their own as well, so an action may leave more open than it has
found, or less.
-/

namespace ScriptTree

/-! ## Builders -/

/-- A node that is open, with the number of elements that stand before it. -/
structure OpenNode where
  kind : Kind
  first : Nat
  deriving DecidableEq, Repr

/-- A parse that builds its tree in one place: `frame` holds all finished elements. -/
structure Build extends State where
  /-- The open nodes, innermost first. -/
  opened : List OpenNode
  deriving Repr

namespace Build

/-- Nothing is read and no node is open. -/
def initial (tokens : List Token) (steps : Option Nat) : Build := ⟨.initial tokens steps, []⟩

/-- Open a node behind the finished elements. -/
def start (k : Kind) (b : Build) : Build := { b with opened := ⟨k, b.frame.size⟩ :: b.opened }

/-- Open a node before the elements that were finished since a mark.  The mark must not be further
    on than that, nor before the innermost open node. -/
def startAt (mark : Nat) (k : Kind) (b : Build) : Except Fault Build :=
  if mark ≤ b.frame.size ∧ ∀ x ∈ b.opened.head?, x.first ≤ mark then
    .ok { b with opened := ⟨k, mark⟩ :: b.opened }
  else .error .unbalanced

/-- Finish the innermost open node. -/
def finish (b : Build) : Except Fault Build :=
  match b.opened with
  | [] => .error .unbalanced
  | x :: opened =>
    .ok { b with
      frame := (b.frame.take x.first).push (.node x.kind (b.frame.toList.drop x.first))
      opened := opened }

/-- The finished tree: a single node, and none that is open. -/
def tree (b : Build) : Except Fault Tree :=
  match b.opened, b.frame.toList with
  | [], [.node k ts] => .ok (.node k ts)
  | _, _ => .error .unbalanced

end Build

/-! ## Actions -/

/-- A step of a parse on a builder, or a sequence of steps. -/
abbrev Action : Type → Type := ReaderT Setting (StateT Build (Except Fault))

namespace Action

variable {α : Type}

/-- A step that leaves the open nodes alone. -/
def onState (step : Setting → State → Except Fault (α × State)) : Action α := fun g b => do
  let (a, s) ← step g b.toState
  return (a, { b with toState := s })

/-! ### Looking -/

/-- The kind of the `n`-th significant token ahead. -/
def ahead (n : Nat) : Action Kind := onState fun g s => s.look g n

/-- The kind of the current token. -/
def current : Action Kind := ahead 0

/-- The text of the current token. -/
def currentText : Action String := onState fun g s => .ok ((s.skip g).frontText, s.skip g)

/-- The span of the current token. -/
def currentSpan : Action Span := onState fun g s => .ok ((s.skip g).frontSpan g, s.skip g)

/-- Is there nothing more to read? -/
def atEnd : Action Bool := onState fun g s => .ok ((s.skip g).rest.isEmpty, s.skip g)

/-- Did the parse come to its end? -/
def stopped : Action Bool := onState fun g s => .ok ((s.skip g).isStopped, s.skip g)

/-- Did a resource run out? -/
def exhausted : Action Bool := onState fun _ s => .ok (s.exhausted.isSome, s)

/-- Does the current token have this kind? -/
def isAt (kind : Kind) : Action Bool := do return (← current) == kind

/-- Is the kind of the current token in the set? -/
def isAtAny (set : TokenSet) : Action Bool := do return set.contains (← current)

/-- What the caller has seen already: the current token has this kind. -/
def assertAt (kind : Kind) : Action Unit := do
  let found ← current
  if found = kind then return else throw (.misplaced kind found)

/-! ### Reports -/

/-- Complain with a message of one's own. -/
def complain (problem : Problem) (detail expected : Option String) : Action Unit :=
  onState fun g s => do return ((), ← s.complain g ⟨problem, detail, expected⟩)

/-- Complain that something is missing here. -/
def missing (problem : Problem) (what : String) : Action Unit := complain problem none (some what)

/-- Report a problem of the current token itself. -/
def remark (problem : Problem) : Action Unit := onState fun g s => .ok ((), s.remark g problem)

/-- Report a problem of the text from an opener to the last consumed token. -/
def remarkSince (problem : Problem) (opener : Span) : Action Unit :=
  onState fun g s => do return ((), ← s.remarkSince g problem opener)

/-! ### Consuming -/

/-- Consume the current token. -/
def bump : Action Unit := onState fun g s => do return ((), ← s.bump g)

/-- Place the skipped tokens that were passed. -/
def drain : Action Unit := onState fun _ s => .ok ((), s.drain)

/-- Place the skipped tokens before the current one. -/
def flush : Action Unit := onState fun g s => .ok ((), (s.skip g).drain)

/-- Consume the current token if it has this kind. -/
def eat (kind : Kind) : Action Bool := do
  if ← isAt kind then
    bump
    return true
  else return false

/-- Consume a token that may be missing. -/
def optionally (kind : Kind) : Action Unit := do
  let _ ← eat kind

/-- Consume a token of this kind, or complain. -/
def expect (kind : Kind) (what : String) : Action Bool := do
  if ← eat kind then return true
  else
    complain .expectedToken (some what) (some kind.describe)
    return false

/-- Like `expect`, and go on in either case. -/
def require (kind : Kind) (what : String) : Action Unit := do
  let _ ← expect kind what

/-- Consume an identifier, or complain. -/
def identifier (what : String) : Action Unit := do
  unless ← eat .identifier do missing .expectedIdentifier what

/-! ### Nodes -/

/-- How many elements are finished. -/
def place : Action Nat := fun _ b => .ok (b.frame.size, b)

/-- A mark behind all that was read. -/
def checkpoint : Action Nat := do
  drain
  place

/-- Open a node behind all that was read. -/
def startNode (kind : Kind) : Action Unit := do
  drain
  modify (Build.start kind)

/-- Open a node that begins at a mark. -/
def startNodeAt (mark : Nat) (kind : Kind) : Action Unit := fun _ b => do
  return ((), ← b.startAt mark kind)

/-- Finish the innermost open node. -/
def finishNode : Action Unit := fun _ b => do return ((), ← b.finish)

/-! ### Levels and delimiters -/

/-- Go one level deeper, unless that is too deep. -/
def enterLevel : Action Bool := onState fun g s => .ok (s.enter g)

/-- Come back from one level. -/
def leaveLevel : Action Unit := onState fun _ s => .ok ((), s.leave)

/-- Note the current token as an opener. -/
def pushDelimiter (delimiter : Delimiter) : Action Unit := onState fun g s =>
  let s := s.skip g
  .ok ((), { s with delimiters := (delimiter, s.frontSpan g) :: s.delimiters })

/-- Take the innermost delimiter off, which must be this one, and consume its closer. -/
def closeDelimiter (delimiter : Delimiter) (construct : String) : Action Unit :=
  onState fun g s => do return ((), ← s.closeDelimiter g delimiter construct)

/-- Finish the innermost open nodes, each of which was opened on a level of its own. -/
def closeLevels : Nat → Action Unit
  | 0 => return
  | nested + 1 => do
    finishNode
    leaveLevel
    closeLevels nested

end Action

end ScriptTree
