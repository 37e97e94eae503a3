import ScriptTree.Pattern

/-!
# Longest match

`Pattern.munch` runs the patterns of a lexicon side by side over the start of a text.  The longest
match wins, and of several patterns with a match of that length the one listed first.
-/

namespace ScriptTree.Pattern

variable {α : Type}

/-- The patterns that are still alive after a character, with what has to follow it. -/
def survivors (c : Char) (live : List (α × Pattern)) : List (α × Pattern) :=
  live.filterMap fun (a, p) =>
    let r := p.residual c
    if r = never then none else some (a, r)

/-- The first pattern that needs nothing more. -/
def satisfied (live : List (α × Pattern)) : Option α :=
  (live.find? fun (_, p) => p.acceptsEmpty).map (·.1)

/-- Continue after `length` characters, with the best match so far. -/
def munchFrom (live : List (α × Pattern)) (length : Nat) (best : Option (α × Nat)) :
    List Char → Option (α × Nat)
  | [] => best
  | c :: cs =>
    match survivors c live with
    | [] => best
    | live =>
      munchFrom live (length + 1) ((satisfied live).map (·, length + 1) <|> best) cs

/-- The longest match at the start of a text: which pattern, and how many characters. -/
def munch (lexicon : List (α × Pattern)) (cs : List Char) : Option (α × Nat) :=
  munchFrom lexicon 0 none cs

end ScriptTree.Pattern
