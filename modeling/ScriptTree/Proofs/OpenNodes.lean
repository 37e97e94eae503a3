import ScriptTree.Parser.Builder
import ScriptTree.Proofs.Running

/-!
# Nodes that are open

A script makes a node in one go: what belongs into it is collected apart, and then put under the
node.  A builder does this in steps, on one stack of open nodes.

Both build the same trees, and neither does a script finish a node that it has not opened, nor
does it leave one open, nor use a mark outside the innermost open node.

## Key results

- `State.look_behind`, `State.bump_behind`, …: no step depends on what is finished already
- `Script.build_behind`: a script builds its nodes on the stack and leaves the stack as it was
- `Rule.build_behind`: so does a rule
-/

namespace ScriptTree

/-- Report that the text between two delimiters is empty, if it must not be. -/
def Action.closeEmpty (ifEmpty : Option Problem) (answer : Bool) (opener : Span) : Action Unit :=
  onState fun g s => do return ((), ← s.closeEmpty g ifEmpty answer opener)

/-- Carry a script out on a builder.  Nodes that turn out to be needed are opened at `mark`. -/
def Script.build (rules : Nat → Rule → Action Bool) : Script → (mark : Nat) → Action Bool
  | .done answer, _ => return answer
  | .fail fault, _ => throw fault
  | .look n next, mark => do (next (← Action.ahead n)).build rules mark
  | .text next, mark => do (next (← Action.currentText)).build rules mark
  | .stopped next, mark => do (next (← Action.stopped)).build rules mark
  | .exhausted next, mark => do (next (← Action.exhausted)).build rules mark
  | .bump next, mark => do
    Action.bump
    next.build rules mark
  | .flush next, mark => do
    Action.flush
    next.build rules mark
  | .complain x next, mark => do
    Action.complain x.problem x.detail x.expected
    next.build rules mark
  | .remark problem next, mark => do
    Action.remark problem
    next.build rules mark
  | .node kind body next, mark => do
    Action.startNode kind
    let inner ← Action.place
    let _ ← body.build rules inner
    Action.finishNode
    next.build rules mark
  | .group body next, mark => do
    let inner ← Action.checkpoint
    let _ ← body.build rules inner
    next.build rules mark
  | .wrap kind body next, mark => do
    Action.startNodeAt mark kind
    let _ ← body.build rules mark
    Action.finishNode
    next.build rules mark
  | .deeper body next, mark => do
    if ← Action.enterLevel then
      let _ ← body.build rules mark
      Action.leaveLevel
      (next true).build rules mark
    else (next false).build rules mark
  | .enclosed delimiter construct ifEmpty body next, mark => do
    let opener ← Action.currentSpan
    Action.pushDelimiter delimiter
    Action.bump
    let answer ← body.build rules mark
    Action.closeDelimiter delimiter construct
    Action.closeEmpty ifEmpty answer opener
    next.build rules mark
  | .call rule next, mark => do (next (← rules mark rule)).build rules mark

/-- Carry a rule out on a builder. -/
def Rule.build : (budget mark : Nat) → Rule → Action Bool
  | 0, _, _ => throw .runaway
  | budget + 1, mark, rule => rule.script.build (Rule.build budget) mark

/-! ## What is finished already -/

namespace State

/-- The same state after more elements were finished. -/
def behind (before : Array Tree) (s : State) : State := { s with frame := before ++ s.frame }

variable {g : Setting} (before : Array Tree) (s : State)

@[simp] theorem behind_rest : (s.behind before).rest = s.rest := rfl
@[simp] theorem behind_frame : (s.behind before).frame = before ++ s.frame := rfl
@[simp] theorem behind_depth : (s.behind before).depth = s.depth := rfl
@[simp] theorem behind_reported : (s.behind before).reported = s.reported := rfl
@[simp] theorem behind_delimiters : (s.behind before).delimiters = s.delimiters := rfl
@[simp] theorem behind_patience : (s.behind before).patience = s.patience := rfl
@[simp] theorem behind_steps : (s.behind before).steps = s.steps := rfl
@[simp] theorem behind_halted : (s.behind before).halted = s.halted := rfl
@[simp] theorem behind_consumedTo : (s.behind before).consumedTo = s.consumedTo := rfl

/-- Where the current token is does not depend on the frame. -/
private theorem frontSpan_behind : (s.behind before).frontSpan g = s.frontSpan g := rfl

/-- What a complaint is about does not depend on the frame. -/
private theorem region_behind : (s.behind before).region g = s.region g := rfl

/-- Skipping is the same behind other trees. -/
private theorem skip_behind : (s.behind before).skip g = (s.skip g).behind before := by
  rw [skip_eq, skip_eq]
  rfl

/-- The skipped tokens are placed behind all trees of the frame. -/
private theorem drain_behind : (s.behind before).drain = s.drain.behind before := by
  simp [drain, behind, Array.append_assoc]

/-- A report is the same behind other trees. -/
private theorem reportAt_behind (o : Nat) (d : Diagnostic) :
    (s.behind before).reportAt g o d = (s.reportAt g o d).behind before := by
  rw [reportAt, reportAt, behind_halted, behind_reported]
  split <;> rfl

/-- A lookahead is the same behind other trees. -/
theorem look_behind (n : Nat) :
    (s.behind before).look g n = Prod.map id (behind before) <$> s.look g n := by
  rw [look, look, skip_behind, behind_patience]
  split <;> rfl

/-- A step is spent the same behind other trees. -/
private theorem spend_behind : (s.behind before).spend = s.spend.behind before := by
  rw [spend, spend, behind_steps]
  split <;> rfl

/-- Consuming a token is the same behind other trees. -/
theorem bump_behind : (s.behind before).bump g = behind before <$> s.bump g := by
  rw [bump, bump, skip_behind, behind_rest]
  split
  · rfl
  · simp only [spend_behind, drain_behind, behind_frame, Array.push_append]
    rfl

/-- Eating a token is the same behind other trees. -/
private theorem eat_behind (k : Kind) :
    (s.behind before).eat g k = Prod.map id (behind before) <$> s.eat g k := by
  rw [eat, eat, look_behind, bind_map_left, map_bind]
  refine bind_congr fun r => ?_
  obtain ⟨found, s'⟩ := r
  simp only [Prod.map, id]
  split
  · rw [bump_behind, bind_map_left, map_bind]
    rfl
  · rfl

/-- What is said about the current token is the same behind other trees. -/
private theorem describeFront_behind :
    (s.behind before).describeFront g = Prod.map id (behind before) <$> s.describeFront g := by
  rw [describeFront, describeFront, skip_behind, behind_rest]
  split
  · rfl
  · rw [look_behind, bind_map_left, map_bind]
    rfl

/-- A complaint is the same behind other trees. -/
private theorem complain_behind (x : Complaint) :
    (s.behind before).complain g x = behind before <$> s.complain g x := by
  rw [complain, complain, describeFront_behind, bind_map_left, map_bind]
  refine bind_congr fun r => ?_
  obtain ⟨found, s'⟩ := r
  simp only [Prod.map, id, region_behind, frontSpan_behind]
  split
  · rw [reportAt_behind]
    rfl
  · rfl

/-- Expecting a token is the same behind other trees. -/
private theorem expect_behind (k : Kind) (what : String) :
    (s.behind before).expect g k what = Prod.map id (behind before) <$> s.expect g k what := by
  rw [expect, expect, eat_behind, bind_map_left, map_bind]
  refine bind_congr fun r => ?_
  obtain ⟨eaten, s'⟩ := r
  cases eaten with
  | true => rfl
  | false =>
    simp only [Prod.map, id, Bool.false_eq_true, if_false, complain_behind, bind_map_left, map_bind]
    rfl

/-- A warning is the same behind other trees. -/
private theorem remark_behind (problem : Problem) :
    (s.behind before).remark g problem = (s.remark g problem).behind before := by
  rw [remark, remark, skip_behind]
  exact reportAt_behind before _ _ _

/-- Asking for a level is the same behind other trees. -/
private theorem enter_behind :
    (s.behind before).enter g = Prod.map id (behind before) (s.enter g) := by
  rw [enter, enter, behind_depth]
  split <;> rfl

/-- The report on an unclosed delimiter is the same behind other trees. -/
private theorem reportUnclosed_behind (d : Delimiter) (construct : String) (opener : Span) :
    (s.behind before).reportUnclosed g d construct opener =
      behind before <$> s.reportUnclosed g d construct opener := by
  rw [reportUnclosed, reportUnclosed, frontSpan_behind]
  split
  · rw [reportAt_behind]
    rfl
  · rfl

/-- Closing a delimiter is the same behind other trees. -/
private theorem closeDelimiter_behind (d : Delimiter) (construct : String) :
    (s.behind before).closeDelimiter g d construct =
      behind before <$> s.closeDelimiter g d construct := by
  have hpopped : ({ s.behind before with delimiters := s.delimiters.tail } : State) =
      ({ s with delimiters := s.delimiters.tail } : State).behind before := rfl
  rw [closeDelimiter, closeDelimiter, behind_delimiters]
  dsimp only
  split
  · rfl
  rw [hpopped, eat_behind, bind_map_left, map_bind]
  refine bind_congr fun r => ?_
  obtain ⟨closed, s'⟩ := r
  cases closed with
  | true => rfl
  | false =>
    simp only [Prod.map, id, Bool.false_eq_true, if_false, skip_behind, behind_rest]
    split
    · exact reportUnclosed_behind before _ d construct _
    · rw [expect_behind, bind_map_left, map_bind]
      rfl

/-- The report on an empty block is the same behind other trees. -/
private theorem closeEmpty_behind (ifEmpty : Option Problem) (answer : Bool) (opener : Span) :
    (s.behind before).closeEmpty g ifEmpty answer opener =
      behind before <$> s.closeEmpty g ifEmpty answer opener := by
  cases ifEmpty with
  | none => rfl
  | some problem =>
    cases answer with
    | true => rfl
    | false =>
      rw [closeEmpty, closeEmpty, remarkSince, remarkSince, behind_consumedTo]
      split
      · rw [reportAt_behind]
        rfl
      · rfl

end State

/-! ## Scripts and rules -/

/-- The innermost open node begins at the `n`-th element or earlier, so all after that belong to
    it. -/
def OpenNode.Within (n : Nat) (opened : List OpenNode) : Prop := ∀ x ∈ opened.head?, x.first ≤ n

/-- The outcome of a run, behind finished elements and inside open nodes. -/
def Reply.inside (before : Array Tree) (opened : List OpenNode) (r : Bool × State) :
    Bool × Build := (r.1, ⟨r.2.behind before, opened⟩)

variable {g : Setting}

namespace Action

variable {α β : Type} {before : Array Tree} {opened : List OpenNode} {s : State}

/-- One action after the other, state by state. -/
theorem bind_apply (x : Action α) (f : α → Action β) (b : Build) :
    (x >>= f) g b = x g b >>= fun r => f r.1 g r.2 := rfl

/-- A step on the state that does not depend on what is finished already. -/
private theorem onState_bind_behind {step : Setting → State → Except Fault (α × State)}
    (h : step g (s.behind before) = Prod.map id (State.behind before) <$> step g s)
    (f : α → Action β) : (onState step >>= f) g ⟨s.behind before, opened⟩ =
      step g s >>= fun r => f r.1 g ⟨r.2.behind before, opened⟩ := by
  rw [bind_apply, onState, h, bind_map_left, bind_assoc]
  rfl

/-- The same for a step that answers nothing. -/
private theorem onState_unit_bind_behind {step : Setting → State → Except Fault State}
    (h : step g (s.behind before) = State.behind before <$> step g s) (f : Unit → Action β) :
    (onState (fun g s => do return ((), ← step g s)) >>= f) g ⟨s.behind before, opened⟩ =
      step g s >>= fun s' => f () g ⟨s'.behind before, opened⟩ := by
  rw [onState_bind_behind (s := s) (by rw [h, bind_map_left, map_bind]; rfl), bind_assoc]
  rfl

end Action

/-- A node may be opened where the trees in front end, since no open node starts later. -/
private theorem Build.startAt_behind (k : Kind) (s : State) {before : Array Tree}
    {opened : List OpenNode} (hopened : OpenNode.Within before.size opened) :
    Build.startAt before.size k ⟨s.behind before, opened⟩ =
      pure ⟨s.behind before, ⟨k, before.size⟩ :: opened⟩ :=
  if_pos ⟨by simp, hopened⟩

/-- Finishing a node puts the elements since its beginning under it. -/
private theorem Build.finish_behind (k : Kind) (before : Array Tree) (opened : List OpenNode)
    (s : State) : Build.finish ⟨s.behind before, ⟨k, before.size⟩ :: opened⟩ =
      pure ⟨({ s with frame := #[.node k s.frame.toList] } : State).behind before, opened⟩ := by
  simp [finish, State.behind, pure, Except.pure]

/-- What was finished last may be counted among what was finished before. -/
private theorem State.behind_append (before f : Array Tree) (s : State) :
    s.behind (before ++ f) = ({ s with frame := f ++ s.frame } : State).behind before := by
  simp [behind, Array.append_assoc]

/-- Before a node or a group everything is finished, so its body starts on nothing. -/
private theorem State.drain_behind_eq (before : Array Tree) (s : State) : (s.behind before).drain =
    ({ s.drain with frame := #[] } : State).behind (before ++ s.drain.frame) := by
  rw [behind_append, Array.append_empty, drain_behind]

/-- Placing tokens adds as many trees behind others as without them. -/
private theorem State.drain_behind_size (before : Array Tree) (s : State) :
    (s.behind before).drain.frame.size = (before ++ s.drain.frame).size := by
  rw [drain_behind, behind_frame]

/-- Open nodes start within a frame that has grown. -/
theorem OpenNode.Within.append {before : Array Tree} {opened : List OpenNode}
    (h : Within before.size opened) (f : Array Tree) : Within (before ++ f).size opened := by
  intro x hx
  rw [Array.size_append]
  exact Nat.le_add_right_of_le (h x hx)

/-- A node that was just opened starts at the end of the frame. -/
private theorem OpenNode.within_cons (k : Kind) (n : Nat) (opened : List OpenNode) :
    Within n (⟨k, n⟩ :: opened) := by
  intro x hx
  cases hx
  exact Nat.le_refl n

/-- A node is opened behind all that was read, and its body starts on nothing. -/
private theorem Action.startNode_behind {β : Type} (k : Kind) (f : Nat → Action β) (s : State)
    (before : Array Tree) (opened : List OpenNode) :
    (do startNode k; f (← place)) g ⟨s.behind before, opened⟩ =
      f (before ++ s.drain.frame).size g
        ⟨({ s.drain with frame := #[] } : State).behind (before ++ s.drain.frame),
          ⟨k, (before ++ s.drain.frame).size⟩ :: opened⟩ := by
  rw [← State.drain_behind_eq, ← State.drain_behind_size]
  rfl

/-- A mark is set behind all that was read, and what comes after it starts on nothing. -/
private theorem Action.checkpoint_behind {β : Type} (f : Nat → Action β) (s : State)
    (before : Array Tree) (opened : List OpenNode) :
    (checkpoint >>= f) g ⟨s.behind before, opened⟩ =
      f (before ++ s.drain.frame).size g
        ⟨({ s.drain with frame := #[] } : State).behind (before ++ s.drain.frame), opened⟩ := by
  rw [← State.drain_behind_eq, ← State.drain_behind_size]
  rfl

/-- A node that begins at a mark becomes the innermost one. -/
private theorem Action.startNodeAt_behind {β : Type} (k : Kind) (f : Unit → Action β) (s : State)
    {before : Array Tree} {opened : List OpenNode} (hopened : OpenNode.Within before.size opened) :
    (startNodeAt before.size k >>= f) g ⟨s.behind before, opened⟩ =
      f () g ⟨s.behind before, ⟨k, before.size⟩ :: opened⟩ := by
  rw [bind_apply, startNodeAt, Build.startAt_behind k s hopened]
  rfl

/-- An opener is noted and consumed, and its span is kept. -/
private theorem Action.openDelimiter_behind {β : Type} (d : Delimiter) (f : Span → Action β)
    (s : State) (before : Array Tree) (opened : List OpenNode) :
    (do let opener ← currentSpan; pushDelimiter d; bump; f opener) g ⟨s.behind before, opened⟩ =
      s.openDelimiter g d >>= fun s' =>
        f ((s.skip g).frontSpan g) g ⟨s'.behind before, opened⟩ := by
  change (pushDelimiter d >>= fun _ => bump >>= fun _ =>
    f (((s.behind before).skip g).frontSpan g)) g ⟨(s.behind before).skip g, opened⟩ = _
  rw [State.skip_behind, State.frontSpan_behind, pushDelimiter,
    onState_bind_behind (by rw [State.skip_behind]; rfl), State.skip_skip]
  exact onState_unit_bind_behind (State.bump_behind before
    { s.skip g with delimiters := (d, (s.skip g).frontSpan g) :: (s.skip g).delimiters })
    fun _ => f ((s.skip g).frontSpan g)

/-- A node is finished with all that was made since its beginning. -/
private theorem Action.finishNode_behind {β : Type} (k : Kind) (f : Unit → Action β)
    (before : Array Tree) (opened : List OpenNode) (s : State) :
    (finishNode >>= f) g ⟨s.behind before, ⟨k, before.size⟩ :: opened⟩ =
      f () g ⟨({ s with frame := #[.node k s.frame.toList] } : State).behind before, opened⟩ := by
  rw [bind_apply, finishNode, Build.finish_behind]
  rfl

/-- A script builds its nodes on the stack if the rules it calls do. -/
theorem Script.build_behind {rules : Rule → State → Reply} {rules' : Nat → Rule → Action Bool}
    (hrules : ∀ rule s before opened, OpenNode.Within before.size opened →
      rules' before.size rule g ⟨s.behind before, opened⟩ =
        Reply.inside before opened <$> rules rule s)
    (script : Script) (s : State) (before : Array Tree) {opened : List OpenNode}
    (hopened : OpenNode.Within before.size opened) :
    script.build rules' before.size g ⟨s.behind before, opened⟩ =
      Reply.inside before opened <$> script.run g rules s := by
  -- Induction on the script.  What is behind the mark is set aside, and the builder has the rest.
  induction script generalizing s before opened with
  | done answer => rfl
  | fail fault => rfl
  | look n next ih =>
    rw [Script.build, Script.run, Action.ahead,
      Action.onState_bind_behind (State.look_behind before s n), map_bind]
    exact bind_congr fun r => ih r.1 r.2 before hopened
  | text next ih =>
    rw [Script.build, Script.run, Action.currentText,
      Action.onState_bind_behind (by rw [State.skip_behind]; rfl)]
    exact ih _ _ before hopened
  | stopped next ih =>
    rw [Script.build, Script.run, Action.stopped,
      Action.onState_bind_behind (by rw [State.skip_behind]; rfl)]
    exact ih _ _ before hopened
  | exhausted next ih => exact ih _ s before hopened
  | bump next ih =>
    rw [Script.build, Script.run, Action.bump,
      Action.onState_unit_bind_behind (State.bump_behind before s), map_bind]
    exact bind_congr fun s' => ih s' before hopened
  | flush next ih =>
    rw [Script.build, Script.run, Action.flush, Action.onState_bind_behind
      (by rw [State.skip_behind, State.drain_behind]; rfl)]
    exact ih _ before hopened
  | complain x next ih =>
    rw [Script.build, Script.run, Action.complain,
      Action.onState_unit_bind_behind (State.complain_behind before s x), map_bind]
    exact bind_congr fun s' => ih s' before hopened
  | remark problem next ih =>
    rw [Script.build, Script.run, Action.remark,
      Action.onState_bind_behind (by rw [State.remark_behind]; rfl)]
    exact ih _ before hopened
  | node k body next ihbody ihnext =>
    -- Inside the node everything made so far counts as finished, and the node is the innermost one.
    rw [Script.build, Script.run, Action.startNode_behind, Action.bind_apply,
      ihbody _ _ (OpenNode.within_cons k _ opened), bind_map_left, map_bind]
    refine bind_congr fun r => ?_
    obtain ⟨a, s₁⟩ := r
    dsimp only [Reply.inside]
    rw [Action.finishNode_behind, State.behind_append]
    exact ihnext _ before hopened
  -- A group marks a place; finishing it leaves what was made since where it is.
  | group body next ihbody ihnext =>
    rw [Script.build, Script.run, Action.checkpoint_behind, Action.bind_apply,
      ihbody _ _ (hopened.append s.drain.frame), bind_map_left, map_bind]
    refine bind_congr fun r => ?_
    obtain ⟨a, s₁⟩ := r
    dsimp only [Reply.inside]
    rw [State.behind_append]
    exact ihnext _ before hopened
  | wrap k body next ihbody ihnext =>
    -- The mark is where the enclosing node or group began, or further on: all that is not before it
    -- goes into the new node.
    rw [Script.build, Script.run, Action.startNodeAt_behind k _ s hopened, Action.bind_apply,
      ihbody s before (OpenNode.within_cons k _ opened), bind_map_left, map_bind]
    refine bind_congr fun r => ?_
    obtain ⟨a, s₁⟩ := r
    dsimp only [Reply.inside]
    rw [Action.finishNode_behind]
    exact ihnext _ before hopened
  -- Entering and leaving a level touches only what the builder does not own.
  | deeper body next ihbody ihnext =>
    rw [Script.build, Script.run, Action.enterLevel,
      Action.onState_bind_behind (by rw [State.enter_behind]; rfl)]
    obtain ⟨granted, s₁⟩ := s.enter g
    cases granted with
    | false => exact ihnext _ _ before hopened
    | true =>
      change (body.build rules' before.size >>= fun _ => Action.leaveLevel >>= fun _ =>
        (next true).build rules' before.size) g ⟨s₁.behind before, opened⟩ = _
      rw [Action.bind_apply, ihbody s₁ before hopened, bind_map_left, map_bind]
      exact bind_congr fun r => ihnext true r.2.leave before hopened
  -- The steps of a delimiter run on the state alone; in between the body is built.
  | enclosed d construct ifEmpty body next ihbody ihnext =>
    rw [Script.build, Script.run_enclosed_eq, Action.openDelimiter_behind, map_bind]
    generalize (s.skip g).frontSpan g = opener
    refine bind_congr fun s₁ => ?_
    rw [Action.bind_apply, ihbody s₁ before hopened, bind_map_left, map_bind]
    refine bind_congr fun r => ?_
    obtain ⟨a, s₂⟩ := r
    dsimp only [Reply.inside]
    rw [Action.closeDelimiter, Action.onState_unit_bind_behind
      (State.closeDelimiter_behind before s₂ d construct), map_bind]
    refine bind_congr fun s₃ => ?_
    rw [Action.closeEmpty, Action.onState_unit_bind_behind
      (State.closeEmpty_behind before s₃ ifEmpty a opener), map_bind]
    exact bind_congr fun s₄ => ihnext s₄ before hopened
  | call rule next ih =>
    rw [Script.build, Script.run, Action.bind_apply, hrules rule s before opened hopened,
      bind_map_left, map_bind]
    exact bind_congr fun r => ih r.1 r.2 before hopened

/-- A rule builds its nodes on the stack and leaves the stack as it was. -/
theorem Rule.build_behind (budget : Nat) (rule : Rule) (s : State) (before : Array Tree)
    {opened : List OpenNode} (hopened : OpenNode.Within before.size opened) :
    Rule.build budget before.size rule g ⟨s.behind before, opened⟩ =
      Reply.inside before opened <$> rule.run g budget s := by
  induction budget generalizing rule s before opened with
  | zero => rfl
  | succ budget ih =>
    exact Script.build_behind (fun rule s before opened hopened => ih rule s before hopened)
      rule.script s before hopened

end ScriptTree
