import ScriptTree.Grammar.Rule

/-!
# Scripts

A `Script` says what a rule does, step by step: look at tokens, consume them, complain, open nodes.
A script is data, and `Script.run` is its only meaning, so a property that every step has holds of
every rule.  Nodes, nesting and delimiters enclose a script of their own: what is opened is closed
again, whatever happens in between.

Rules call each other by name.  `Rule.run` unfolds calls to a bounded depth; the bound that
`Parser` sets is never met.

Scripts are written as `Fragment`s, which pass a value to what follows them and can be chained with
`do`.
-/

namespace ScriptTree

/-- What a rule does.  A script ends with an answer. -/
inductive Script where
  /-- End with an answer. -/
  | done (answer : Bool)
  /-- Give up. -/
  | fail (fault : Fault)
  /-- Look at the `n`-th significant token ahead. -/
  | look (n : Nat) (next : Kind → Script)
  /-- Read the text of the current token. -/
  | text (next : String → Script)
  /-- Ask whether the parse came to its end. -/
  | stopped (next : Bool → Script)
  /-- Ask whether a resource ran out. -/
  | exhausted (next : Bool → Script)
  /-- Consume the current token. -/
  | bump (next : Script)
  /-- Place the skipped tokens before the current one. -/
  | flush (next : Script)
  /-- Complain about the current token. -/
  | complain (complaint : Complaint) (next : Script)
  /-- Report a problem of the current token itself. -/
  | remark (problem : Problem) (next : Script)
  /-- Make a node of what `body` adds. -/
  | node (kind : Kind) (body next : Script)
  /-- Keep what `body` adds apart, so that `wrap` reaches back to here. -/
  | group (body next : Script)
  /-- Make a node of what the enclosing group or node holds so far and what `body` adds. -/
  | wrap (kind : Kind) (body next : Script)
  /-- Run `body` one level deeper, unless that is too deep; answer whether it was run. -/
  | deeper (body : Script) (next : Bool → Script)
  /-- Consume an opener, run `body` and consume the closer.  If `body` answers `false`, report
      `ifEmpty` for the whole. -/
  | enclosed (delimiter : Delimiter) (construct : String) (ifEmpty : Option Problem)
      (body next : Script)
  /-- Run a rule. -/
  | call (rule : Rule) (next : Bool → Script)

/-- The outcome of a script: an answer and a new state, or a fault. -/
abbrev Reply := Except Fault (Bool × State)

/-- Run a script; `rules` runs the rules that it calls. -/
def Script.run (g : Setting) (rules : Rule → State → Reply) : Script → State → Reply
  | .done answer, s => .ok (answer, s)
  | .fail fault, _ => .error fault
  | .look n next, s => do
    let (kind, s) ← s.look g n
    (next kind).run g rules s
  | .text next, s =>
    let s := s.skip g
    (next s.frontText).run g rules s
  | .stopped next, s =>
    let s := s.skip g
    (next s.isStopped).run g rules s
  | .exhausted next, s => (next s.exhausted.isSome).run g rules s
  | .bump next, s => do next.run g rules (← s.bump g)
  | .flush next, s => next.run g rules (s.skip g).drain
  | .complain complaint next, s => do next.run g rules (← s.complain g complaint)
  | .remark problem next, s => next.run g rules (s.remark g problem)
  | .node kind body next, s => do
    -- What is pending belongs to the outer frame, so it moves there before the new one begins.
    let outer := s.drain
    let (_, s) ← body.run g rules { outer with frame := #[] }
    next.run g rules { s with frame := outer.frame.push (.node kind s.frame.toList) }
  | .group body next, s => do
    let outer := s.drain
    let (_, s) ← body.run g rules { outer with frame := #[] }
    next.run g rules { s with frame := outer.frame ++ s.frame }
  | .wrap kind body next, s => do
    let (_, s) ← body.run g rules s
    next.run g rules { s with frame := #[.node kind s.frame.toList] }
  | .deeper body next, s => do
    match s.enter g with
    | (false, s) => (next false).run g rules s
    | (true, s) =>
      let (_, s) ← body.run g rules s
      (next true).run g rules s.leave
  | .enclosed delimiter construct ifEmpty body next, s => do
    -- Taken before the opener is consumed: a report on an empty construct covers the whole of it.
    let opener := (s.skip g).frontSpan g
    let s ← s.openDelimiter g delimiter
    let (answer, s) ← body.run g rules s
    let s ← s.closeDelimiter g delimiter construct
    match ifEmpty, answer with
    | some problem, false => next.run g rules (← s.remarkSince g problem opener)
    | _, _ => next.run g rules s
  | .call rule next, s => do
    let (answer, s) ← rules rule s
    (next answer).run g rules s

/-- A part of a script that passes a value on to the rest. -/
def Fragment (α : Type) : Type := (α → Script) → Script

namespace Fragment

instance : Monad Fragment where
  pure a := fun next => next a
  bind m f := fun next => m fun a => f a next

/-- The fragment as a script that ends with the fragment's value. -/
def script (m : Fragment Bool) : Script := m .done

/-- The fragment as a script whose answer does not matter. -/
def unit (m : Fragment Unit) : Script := m fun _ => .done true

/-! ## Steps -/

/-- The kind of the `n`-th significant token ahead. -/
def ahead (n : Nat) : Fragment Kind := fun next => .look n next

/-- The kind of the current token. -/
def current : Fragment Kind := ahead 0

/-- The text of the current token. -/
def currentText : Fragment String := fun next => .text next

/-- Did the parse come to its end? -/
def stopped : Fragment Bool := fun next => .stopped next

/-- Did a resource run out? -/
def exhausted : Fragment Bool := fun next => .exhausted next

/-- Consume the current token. -/
def bump : Fragment Unit := fun next => .bump (next ())

/-- Place the skipped tokens before the current one. -/
def flush : Fragment Unit := fun next => .flush (next ())

/-- Complain with a message of one's own. -/
def complain (problem : Problem) (detail expected : Option String) : Fragment Unit :=
  fun next => .complain ⟨problem, detail, expected⟩ (next ())

/-- Complain that something is missing here. -/
def missing (problem : Problem) (what : String) : Fragment Unit := complain problem none (some what)

/-- Report a problem of the current token itself. -/
def remark (problem : Problem) : Fragment Unit := fun next => .remark problem (next ())

/-- Make a node. -/
def node (kind : Kind) (body : Fragment Unit) : Fragment Unit :=
  fun next => .node kind body.unit (next ())

/-- Keep together what a later `wrap` takes. -/
def group (body : Fragment Unit) : Fragment Unit := fun next => .group body.unit (next ())

/-- Make a node that starts where the enclosing group or node started. -/
def wrap (kind : Kind) (body : Fragment Unit) : Fragment Unit :=
  fun next => .wrap kind body.unit (next ())

/-- One level deeper; answers whether the level was granted. -/
def deeper (body : Fragment Unit) : Fragment Bool := fun next => .deeper body.unit next

/-- Something between two delimiters. -/
def enclosed (delimiter : Delimiter) (construct : String) (body : Fragment Unit) : Fragment Unit :=
  fun next => .enclosed delimiter construct none body.unit (next ())

/-- Something between two delimiters that must not be empty; `body` answers whether it is not. -/
def enclosedNonempty (delimiter : Delimiter) (construct : String) (ifEmpty : Problem)
    (body : Fragment Bool) : Fragment Unit :=
  fun next => .enclosed delimiter construct (some ifEmpty) body.script (next ())

/-- The answer of a rule. -/
def ask (rule : Rule) : Fragment Bool := fun next => .call rule next

/-- A rule, whatever its answer. -/
def call (rule : Rule) : Fragment Unit := fun next => .call rule fun _ => next ()

/-! ## Combinations -/

/-- Does the current token have this kind? -/
def isAt (kind : Kind) : Fragment Bool := do return (← current) == kind

/-- Is the kind of the current token in the set? -/
def isAtAny (set : TokenSet) : Fragment Bool := do return set.contains (← current)

/-- Consume the current token if it has this kind. -/
def eat (kind : Kind) : Fragment Bool := do
  if ← isAt kind then
    bump
    return true
  else return false

/-- Consume a token that may be missing. -/
def optionally (kind : Kind) : Fragment Unit := do
  let _ ← eat kind

/-- Consume a token of this kind, or complain. -/
def expect (kind : Kind) (what : String) : Fragment Bool := do
  if ← eat kind then return true
  else
    complain .expectedToken (some what) (some kind.describe)
    return false

/-- Like `expect`, and go on in either case. -/
def require (kind : Kind) (what : String) : Fragment Unit := do
  let _ ← expect kind what

/-- Consume an identifier, or complain. -/
def identifier (what : String) : Fragment Unit := do
  unless ← eat .identifier do missing .expectedIdentifier what

/-- What the caller has seen already: the current token has this kind. -/
def entered (kind : Kind) : Fragment Unit := fun next =>
  .look 0 fun found => if found = kind then next () else .fail (.misplaced kind found)

/-- An error node of the current token and those after it up to one of a set. -/
def setAside (problem : Problem) (what : String) (stops : TokenSet) (rest : Fragment Unit) :
    Fragment Unit :=
  node .error do
    missing problem what
    bump
    call (.discard stops)
    rest

end Fragment

end ScriptTree
