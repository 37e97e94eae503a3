import ScriptTree.Kind

/-!
# Faults

A `Fault` is a broken promise: a caller handed over something that is no part of the source, or
the grammar failed to make headway.  Faults are not about the text that is read; what is wrong with
a text is a `Problem`.
-/

namespace ScriptTree

/-- A broken promise of a caller or of the grammar. -/
inductive Fault where
  /-- Too many lookaheads without consuming a token; `index` tokens had been read. -/
  | stalled (index : Nat)
  /-- Tokens were handed over in an order other than that of the source. -/
  | disorder
  /-- A span leaves the source, or cuts a character. -/
  | noSlice
  /-- A span ends before it starts. -/
  | backwards
  /-- A token was to be consumed at the end of the input. -/
  | pastEnd
  /-- A rule was entered on a token that does not start it. -/
  | misplaced (expected found : Kind)
  /-- A closer met an opener that is not its partner. -/
  | unpaired
  /-- A node was finished that was not open, or opened where it could not begin, or the tree was
      taken before it was complete. -/
  | unbalanced
  /-- The tree does not spell out the source. -/
  | lossy
  /-- The grammar called itself too deeply for the number of tokens. -/
  | runaway
  deriving DecidableEq, Repr

/-- The wording of the faults that have one. -/
def Fault.message? : Fault → Option String
  | stalled index => some ("grammar loop stopped consuming input at token index " ++ toString index)
  | disorder => some "tokens out of source order"
  | _ => none

end ScriptTree
