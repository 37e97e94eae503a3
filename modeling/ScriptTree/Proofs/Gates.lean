import ScriptTree.Proofs.Analyses
import ScriptTree.Proofs.Sites
import ScriptTree.Proofs.Strictness

/-!
# Lookahead decides what is what

A name, an array, a record, a function literal, an expression in parentheses and a block open with
the same few tokens.  The grammar tells them apart by what comes next, before it opens a node, and
it does so in every program, however malformed (`Kind.Gate`).

`Script.Gates` walks through a script with the significant tokens that are ahead and checks that a
node is opened only where its gate lets it pass.  Complaints do not change what is ahead, so the
walk is the same with and without errors; only a parse that was cut short is left out.

## Key results

- `Rule.gates`: no rule gets around the gates
- `parse_gated`: every node of a tree passes its gate
-/

namespace ScriptTree

/-! ## Gates -/

/-- What decides that a node is of its kind: its own leaves and the leaves after it. -/
def Kind.Gate (k : Kind) (own after : List (Kind × String)) : Prop :=
  match k with
  | .nameRef => ∃ name, own = [(.identifier, name)] ∧ kindAt after 0 ≠ .lCurly ∧
      (kindAt after 0 = .lBracket → name ∉ scalarTypeNames)
  | .arrayLiteral => kindAt own 0 = .identifier → frontText own ∈ scalarTypeNames
  | .fnLiteral => kindAt own 0 = .lParen ∧ (kindAt own 1 = .rParen ∨
      kindAt own 1 = .identifier ∧ kindAt own 2 = .colon ∧ kindAt (own ++ after) 3 ≠ .colon)
  | .parenExpr => kindAt (own ++ after) 0 = .lParen ∧ startsFnLiteral (own ++ after) = false
  | .block => kindAt (own ++ after) 0 = .lCurly → startsRecord (own ++ after) = false
  | _ => True

/-- Nodes of other kinds are not told apart by lookahead. -/
def Kind.isGated : Kind → Bool
  | .nameRef | .arrayLiteral | .fnLiteral | .parenExpr | .block => true
  | _ => false

/-- A kind without a gate lets everything pass. -/
private theorem Kind.gate_of_not_isGated {k : Kind} (h : k.isGated = false)
    (own after : List (Kind × String)) : k.Gate own after := by
  unfold Kind.Gate
  split <;> simp_all [Kind.isGated]

/-- The tokens ahead after a closer, which is eaten if it is there. -/
def afterCloser (d : Delimiter) (input : List (Kind × String)) : List (Kind × String) :=
  if kindAt input 0 = d.closer then input.tail else input

/-- The tokens ahead after a token that is eaten if it is there. -/
def MayEat (k : Kind) (input rest : List (Kind × String)) : Prop :=
  if kindAt input 0 = k then ∃ p, input = p :: rest else rest = input

namespace Rule

/-- Where a rule may be called: a block only where no record starts. -/
def Admits (input : List (Kind × String)) : Rule → Prop
  | block => kindAt input 0 = .lCurly → startsRecord input = false
  | _ => True

/-- How much a rule leaves of the tokens ahead, where that matters: the parameters of a function
    literal take the tokens that told it apart. -/
def Leaves (input rest : List (Kind × String)) : Rule → Prop
  | fnTail => kindAt input 0 = .lParen →
      (kindAt input 1 = .rParen → rest.length + 2 ≤ input.length) ∧
        (kindAt input 1 = .identifier → kindAt input 2 = .colon → rest.length + 3 ≤ input.length)
  | elements .params =>
      kindAt input 0 = .identifier → kindAt input 1 = .colon → rest.length + 2 ≤ input.length
  | param => kindAt input 1 = .colon → rest.length + 2 ≤ input.length
  | _ => True

end Rule

/-- Run without being cut short, the script opens nodes only where their gates let them pass, and
    `post` holds of its answer and of what is left of the tokens ahead. -/
def Script.Gates : Script → List (Kind × String) → (Bool → List (Kind × String) → Prop) → Prop
  | .done a, input, post => post a input
  | .fail _, _, _ => True
  | .look n next, input, post => (next (kindAt input n)).Gates input post
  | .text next, input, post => (next (frontText input)).Gates input post
  | .stopped next, input, post => (next input.isEmpty).Gates input post
  | .exhausted next, input, post => (next false).Gates input post
  | .bump next, input, post => ∀ p rest, input = p :: rest → next.Gates rest post
  | .flush next, input, post => next.Gates input post
  | .complain _ next, input, post => next.Gates input post
  | .remark _ next, input, post => next.Gates input post
  | .node k body next, input, post => body.Gates input fun _ rest =>
      (∀ own, input = own ++ rest → k.Gate own rest) ∧ next.Gates rest post
  | .group body next, input, post => body.Gates input fun _ rest => next.Gates rest post
  | .wrap k body next, input, post =>
    k.isGated = false ∧ body.Gates input fun _ rest => next.Gates rest post
  -- A level that is refused cuts the parse short.
  | .deeper body next, input, post => body.Gates input fun _ rest => (next true).Gates rest post
  | .enclosed d _ _ body next, input, post => ∀ p rest, input = p :: rest →
      body.Gates rest fun _ rest => next.Gates (afterCloser d rest) post
  | .call rule next, input, post => rule.Admits input ∧
      ∀ a rest, rest <:+ input → rule.Leaves input rest → (next a).Gates rest post

/-! ## Runs -/

namespace State

variable {g : Setting} {s s' : State}

/-- The parse was not cut short. -/
def Live (s : State) : Prop := s.exhausted = none ∧ s.halted = false

/-- A parse that was not cut short had not been cut short before. -/
theorem Live.of_later (h : s'.Live) (hlater : s.Later g s') : s.Live := by
  refine ⟨hlater.exhausted h.1, ?_⟩
  cases hhalted : s.halted with
  | false => rfl
  | true =>
    have hhalted' := (hlater.silent hhalted).1
    rw [h.2] at hhalted'
    cases hhalted'

/-- Significant tokens are only taken from the front. -/
theorem Later.input_suffix (h : s.Later g s') : s'.reading.input <:+ s.reading.input :=
  (h.rest.filter _).map _

/-- A closer that is there is consumed, and nothing else is. -/
private theorem afterCloser_reading {d : Delimiter}
    (h : s.reading.Eats d.closer s'.reading ∨
      kindAt s.reading.input 0 ≠ d.closer ∧ s'.reading = s.reading) :
    s'.reading.input = afterCloser d s.reading.input := by
  obtain ⟨text, hinput, -⟩ | ⟨hne, hreading⟩ := h
  · simp [afterCloser, hinput]
  · simp [afterCloser, hne, hreading]

end State

variable {g : Setting} {labels : List (Kind × String)}

/-- What a rule does that was not cut short: it leaves the tokens that it should, and the nodes that
    it places pass their gates. -/
def Rule.Gated (rules : Rule → State → Reply) : Prop :=
  ∀ rule s a s' labels, rules rule s = .ok (a, s') → s'.Live → rule.Admits s.reading.input →
    s.Surveyed Kind.Gate labels →
    rule.Leaves s.reading.input s'.reading.input ∧ s'.Surveyed Kind.Gate labels

/-- From the state the script keeps to its gates, and what that shows of the outcome is what is
    claimed. -/
def Script.KeepsGates (script : Script) (s : State) (goal : Bool → State → Prop) : Prop :=
  ∃ post labels, script.Gates s.reading.input post ∧ s.Surveyed Kind.Gate labels ∧
    ∀ a s', post a s'.reading.input → s'.Surveyed Kind.Gate labels → goal a s'

namespace Script.KeepsGates

variable {script next body : Script} {s s' s₁ : State} {goal : Bool → State → Prop}

/-- The gates may be kept for a weaker goal. -/
theorem mono {goal' : Bool → State → Prop} (h : script.KeepsGates s goal)
    (hgoal : ∀ a s', goal a s' → goal' a s') : script.KeepsGates s goal' := by
  obtain ⟨post, labels, hgates, hs, hshown⟩ := h
  exact ⟨post, labels, hgates, hs, fun a s' hpost hs' => hgoal a s' (hshown a s' hpost hs')⟩

/-- In a parse that is not cut short, the answers are what the tokens ahead make them. -/
theorem step (hstep : Step g script s next s') (hlive : s'.Live) (h : script.KeepsGates s goal) :
    next.KeepsGates s' goal := by
  obtain ⟨post, labels, hgates, hs, hgoal⟩ := h
  obtain ⟨hwaits, hreading⟩ := hstep.still hs.waits
  refine ⟨post, labels, ?_, hs.of_reading hwaits hreading, hgoal⟩
  rw [hreading]
  -- No step but a look puts anything in front, and none changes what was read.
  cases hstep with
  | look hlook =>
    obtain ⟨rfl, -⟩ := hs.waits.look hlook
    exact hgates
  | text next =>
    rw [← State.frontText_reading]
    exact hgates
  | stopped next =>
    rw [State.isStopped_reading (by rw [← hlive.1, State.skip_exhausted]) hlive.2]
    exact hgates
  | exhausted next =>
    rw [hlive.1]
    exact hgates
  | flush | complain | remark => exact hgates

/-- A token that is consumed keeps the gates for what follows. -/
theorem bump (hbump : s.bump g = .ok s') (h : (Script.bump next).KeepsGates s goal) :
    next.KeepsGates s' goal := by
  obtain ⟨post, labels, hgates, hs, hgoal⟩ := h
  obtain ⟨hwaits, k, heats⟩ := hs.waits.bump hbump
  have hinput := heats
  obtain ⟨text, hinput, -⟩ := hinput
  exact ⟨post, labels, hgates _ _ hinput, hs.of_eats hwaits heats, hgoal⟩

/-- A body starts with a frame of its own, to whose leaves all that is still ahead may come. -/
theorem emptied {post : Bool → List (Kind × String) → Prop}
    (hgates : body.Gates s.reading.input post)
    (hgoal : ∀ a s₁, post a s₁.reading.input → s₁.Surveyed Kind.Gate s.reading.input →
      goal a s₁) : body.KeepsGates { s.drain with frame := #[] } goal :=
  ⟨post, s.reading.input, by rwa [State.reading_emptied], State.surveyed_emptied, hgoal⟩

/-- The body of a node keeps the gates from an empty frame on, and the node then stands in the frame
    outside. -/
theorem node {k : Kind} (h : (Script.node k body next).KeepsGates s goal) :
    body.KeepsGates { s.drain with frame := #[] } fun _ s₁ =>
      next.KeepsGates { s₁ with frame := s.drain.frame.push (.node k s₁.frame.toList) } goal := by
  obtain ⟨post, labels, hgates, hs, hgoal⟩ := h
  refine emptied hgates fun _ s₁ ⟨hgate, hnext⟩ h₁ => ⟨post, labels, ?_, ?_, hgoal⟩
  · rw [State.reading_pushNode hs.waits]
    exact hnext
  · exact hs.pushNode h₁ (hgate _ h₁.spelled.symm)

/-- The body of a group keeps the gates from an empty frame on, and its frame then joins the one
    outside. -/
theorem group (h : (Script.group body next).KeepsGates s goal) :
    body.KeepsGates { s.drain with frame := #[] } fun _ s₁ =>
      next.KeepsGates { s₁ with frame := s.drain.frame ++ s₁.frame } goal := by
  obtain ⟨post, labels, hgates, hs, hgoal⟩ := h
  refine emptied hgates fun _ s₁ hnext h₁ => ⟨post, labels, ?_, hs.appendFrame h₁, hgoal⟩
  rw [State.reading_appendFrame hs.waits]
  exact hnext

/-- The body of what wraps keeps the gates in the same frame, which then is one node. -/
theorem wrap {k : Kind} (h : (Script.wrap k body next).KeepsGates s goal) :
    body.KeepsGates s fun _ s₁ =>
      next.KeepsGates { s₁ with frame := #[.node k s₁.frame.toList] } goal := by
  obtain ⟨post, labels, ⟨hk, hgates⟩, hs, hgoal⟩ := h
  refine ⟨_, labels, hgates, hs, fun _ s₁ hnext h₁ => ⟨post, labels, ?_, ?_, hgoal⟩⟩
  · rw [State.reading_wrapped]
    exact hnext
  · exact h₁.wrapped (Kind.gate_of_not_isGated hk _ _)

/-- On a level that was granted the gates are kept, and after it was left. -/
theorem granted {next : Bool → Script} (henter : s.enter g = (true, s₁))
    (h : (Script.deeper body next).KeepsGates s goal) :
    body.KeepsGates s₁ fun _ s₂ => (next true).KeepsGates s₂.leave goal := by
  obtain ⟨post, labels, hgates, hs, hgoal⟩ := h
  obtain ⟨hwaits, hreading⟩ := hs.waits.enter henter
  refine ⟨_, labels, by rw [hreading]; exact hgates, hs.of_reading hwaits hreading, ?_⟩
  intro _ s₂ hnext h₂
  obtain ⟨hwaits', hreading'⟩ := h₂.waits.leave
  exact ⟨post, labels, by rw [hreading']; exact hnext, h₂.of_reading hwaits' hreading', hgoal⟩

/-- Between the delimiters the gates are kept, and after the closer was read or found missing. -/
theorem enclosed {d : Delimiter} {construct : String} {ifEmpty : Option Problem}
    (hopen : s.openDelimiter g d = .ok s₁)
    (h : (Script.enclosed d construct ifEmpty body next).KeepsGates s goal) :
    body.KeepsGates s₁ fun b s₂ => ∀ s₃ s₄, s₂.closeDelimiter g d construct = .ok s₃ →
      s₃.closeEmpty g ifEmpty b ((s.skip g).frontSpan g) = .ok s₄ → next.KeepsGates s₄ goal := by
  obtain ⟨post, labels, hgates, hs, hgoal⟩ := h
  -- What stands inside is gated with the opener in front of it.
  obtain ⟨hwaits₁, k, heats⟩ := hs.waits.openDelimiter hopen
  have hinput := heats
  obtain ⟨text, hinput, -⟩ := hinput
  refine ⟨_, labels, hgates _ _ hinput, hs.of_eats hwaits₁ heats, ?_⟩
  intro b s₂ hnext h₂ s₃ s₄ hclose hempty
  obtain ⟨hwaits₃, hcloser⟩ := h₂.waits.closeDelimiter hclose
  obtain ⟨hwaits₄, hreading₄⟩ := hwaits₃.closeEmpty hempty
  refine ⟨post, labels, ?_, (h₂.closeDelimiter hclose).of_reading hwaits₄ hreading₄, hgoal⟩
  rw [hreading₄, State.afterCloser_reading hcloser]
  exact hnext

/-- A rule that was called keeps the gates for what follows, since all rules do. -/
theorem call {rules : Rule → State → Reply} (hrules : Rule.Gated rules)
    (hlater : ∀ rule s a s', rules rule s = .ok (a, s') → s.Later g s') {rule : Rule}
    {next : Bool → Script} {b : Bool} (hcall : rules rule s = .ok (b, s₁)) (hlive : s₁.Live)
    (h : (Script.call rule next).KeepsGates s goal) : (next b).KeepsGates s₁ goal := by
  obtain ⟨post, labels, ⟨hadmits, hgates⟩, hs, hgoal⟩ := h
  obtain ⟨hleaves, h₁⟩ := hrules _ _ _ _ _ hcall hlive hadmits hs
  exact ⟨post, labels, hgates _ _ (hlater _ _ _ _ hcall).input_suffix hleaves, h₁, hgoal⟩

end Script.KeepsGates

/-- The gates of a script show how it runs, unless it is cut short. -/
def Script.gateAnalysis {rules : Rule → State → Reply} (hrules : Rule.Gated rules)
    (hlater : ∀ rule s a s', rules rule s = .ok (a, s') → s.Later g s') :
    Script.Analysis g rules where
  Fine := KeepsGates
  Last := State.Live
  Before := State.Later g
  lasting := State.later_lasting
  before := hlater
  back hbefore hlive := hlive.of_later hbefore
  outer hlive := hlive
  done := fun ⟨_, _, hgates, hs, hgoal⟩ => hgoal _ _ hgates hs
  step := .step
  bump hbump _ := .bump hbump
  node h := h.node.mono fun _ _ hnext _ _ => hnext
  group h := h.group.mono fun _ _ hnext _ _ => hnext
  wrap h := h.wrap.mono fun _ _ hnext _ _ => hnext
  refused henter hlive _ := absurd hlive.1 (State.exhausted_of_enter henter)
  granted henter h := (h.granted henter).mono fun _ _ hnext _ _ => hnext
  enclosed hopen h := (h.enclosed hopen).mono fun _ _ hnext _ s₃ s₄ hclose hempty _ =>
    hnext s₃ s₄ hclose hempty
  call hcall hlive := .call hrules hlater hcall hlive

/-- A script that keeps to the gates places only nodes that pass them. -/
theorem Script.run_gated {rules : Rule → State → Reply} (hrules : Rule.Gated rules)
    (hlater : ∀ rule s a s', rules rule s = .ok (a, s') → s.Later g s') {script : Script}
    {post : Bool → List (Kind × String) → Prop} {s s' : State} {a : Bool}
    (hgates : script.Gates s.reading.input post) (hrun : script.run g rules s = .ok (a, s'))
    (hlive : s'.Live) (h : s.Surveyed Kind.Gate labels) :
    post a s'.reading.input ∧ s'.Surveyed Kind.Gate labels := by
  have hkeeps : script.KeepsGates s fun a s' =>
      post a s'.reading.input ∧ s'.Surveyed Kind.Gate labels :=
    ⟨post, labels, hgates, h, fun _ _ hpost hs => ⟨hpost, hs⟩⟩
  exact run_sound (gateAnalysis hrules hlater) hkeeps hrun hlive

/-! ## Steps -/

namespace Fragment

variable {α β : Type} {input : List (Kind × String)} {post : Bool → List (Kind × String) → Prop}

/-- A script that is done leaves the tokens that are ahead. -/
@[simp] theorem gates_done {answer : Bool} :
    (Script.done answer).Gates input post ↔ post answer input := Iff.rfl

/-- Fragments in sequence are walked through in sequence. -/
@[simp] theorem gates_bind (m : Fragment α) (f : α → Fragment β) (next : β → Script) :
    ((m >>= f) next).Gates input post ↔ (m fun a => f a next).Gates input post := Iff.rfl

/-- Handing on a value consumes nothing. -/
@[simp] theorem gates_pure (a : α) (next : α → Script) :
    ((pure a : Fragment α) next).Gates input post ↔ (next a).Gates input post := Iff.rfl

/-- Only the branch that is taken is walked through. -/
@[simp] theorem gates_ite (c : Prop) [Decidable c] (m n : Fragment α) (next : α → Script) :
    ((if c then m else n) next).Gates input post ↔
      if c then (m next).Gates input post else (n next).Gates input post := by
  split <;> rfl

/-- What stands ahead is known from the input. -/
@[simp] theorem gates_ahead (n : Nat) (next : Kind → Script) :
    (ahead n next).Gates input post ↔ (next (kindAt input n)).Gates input post := Iff.rfl

/-- The current kind is known from the input. -/
@[simp] theorem gates_current (next : Kind → Script) :
    (current next).Gates input post ↔ (next (kindAt input 0)).Gates input post := Iff.rfl

/-- The current text is known from the input. -/
@[simp] theorem gates_currentText (next : String → Script) :
    (currentText next).Gates input post ↔ (next (frontText input)).Gates input post := Iff.rfl

/-- A parse that was not cut short stops at the end of the input. -/
@[simp] theorem gates_stopped (next : Bool → Script) :
    (stopped next).Gates input post ↔ (next input.isEmpty).Gates input post := Iff.rfl

/-- A parse that was cut short is left out. -/
@[simp] theorem gates_exhausted (next : Bool → Script) :
    (exhausted next).Gates input post ↔ (next false).Gates input post := Iff.rfl

/-- The first label of the input is consumed. -/
@[simp] theorem gates_bump (next : Unit → Script) :
    (bump next).Gates input post ↔ ∀ p rest, input = p :: rest → (next ()).Gates rest post :=
  Iff.rfl

/-- The tokens that the grammar skips are no part of the input. -/
@[simp] theorem gates_flush (next : Unit → Script) :
    (flush next).Gates input post ↔ (next ()).Gates input post := Iff.rfl

/-- A complaint does not change what is ahead. -/
@[simp] theorem gates_complain (problem : Problem) (detail expected : Option String)
    (next : Unit → Script) :
    (complain problem detail expected next).Gates input post ↔ (next ()).Gates input post := Iff.rfl

/-- A complaint does not change what is ahead. -/
@[simp] theorem gates_missing (problem : Problem) (what : String) (next : Unit → Script) :
    (missing problem what next).Gates input post ↔ (next ()).Gates input post := Iff.rfl

/-- A warning does not change what is ahead. -/
@[simp] theorem gates_remark (problem : Problem) (next : Unit → Script) :
    (remark problem next).Gates input post ↔ (next ()).Gates input post := Iff.rfl

/-- A node must pass its gate with the labels that its body consumed. -/
private theorem gates_node (k : Kind) (body : Fragment Unit) (next : Unit → Script) :
    (node k body next).Gates input post ↔ body.unit.Gates input fun _ rest =>
      (∀ own, input = own ++ rest → k.Gate own rest) ∧ (next ()).Gates rest post := Iff.rfl

/-- A node that passes its gate wherever it ends. -/
private theorem gates_node_of {k : Kind} (hgate : ∀ own rest, input = own ++ rest → k.Gate own rest)
    (body : Fragment Unit) (next : Unit → Script) :
    (node k body next).Gates input post ↔
      body.unit.Gates input fun _ rest => (next ()).Gates rest post := by
  have hpass : ∀ rest, (∀ own, input = own ++ rest → k.Gate own rest) ↔ True := fun rest =>
    iff_true_intro fun own => hgate own rest
  simp only [gates_node, hpass, true_and]

/-- A node whose kind has no gate may be opened anywhere. -/
@[simp] theorem gates_node_free {k : Kind} (hk : k.isGated = false) (body : Fragment Unit)
    (next : Unit → Script) :
    (node k body next).Gates input post ↔
      body.unit.Gates input fun _ rest => (next ()).Gates rest post :=
  gates_node_of (fun own rest _ => Kind.gate_of_not_isGated hk own rest) body next

/-- A group has no gate. -/
@[simp] theorem gates_group (body : Fragment Unit) (next : Unit → Script) :
    (group body next).Gates input post ↔
      body.unit.Gates input fun _ rest => (next ()).Gates rest post := Iff.rfl

/-- What is put around nodes that are there already has no gate. -/
@[simp] theorem gates_wrap (k : Kind) (body : Fragment Unit) (next : Unit → Script) :
    (wrap k body next).Gates input post ↔
      k.isGated = false ∧ body.unit.Gates input fun _ rest => (next ()).Gates rest post := Iff.rfl

/-- A level that is refused cuts the parse short, so it is left out. -/
@[simp] theorem gates_deeper (body : Fragment Unit) (next : Bool → Script) :
    (deeper body next).Gates input post ↔
      body.unit.Gates input fun _ rest => (next true).Gates rest post := Iff.rfl

/-- The opener is consumed, then the body, then the closer if it is there. -/
@[simp] theorem gates_enclosed (d : Delimiter) (construct : String) (body : Fragment Unit)
    (next : Unit → Script) :
    (enclosed d construct body next).Gates input post ↔ ∀ p rest, input = p :: rest →
      body.unit.Gates rest fun _ rest => (next ()).Gates (afterCloser d rest) post := Iff.rfl

/-- As `gates_enclosed`; the warning does not change what is ahead. -/
@[simp] theorem gates_enclosedNonempty (d : Delimiter) (construct : String) (ifEmpty : Problem)
    (body : Fragment Bool) (next : Unit → Script) :
    (enclosedNonempty d construct ifEmpty body next).Gates input post ↔
      ∀ p rest, input = p :: rest →
        body.script.Gates rest fun _ rest => (next ()).Gates (afterCloser d rest) post := Iff.rfl

/-- A rule is called where it is admitted, and leaves what it says. -/
@[simp] theorem gates_ask (rule : Rule) (next : Bool → Script) :
    (ask rule next).Gates input post ↔ rule.Admits input ∧
      ∀ a rest, rest <:+ input → rule.Leaves input rest → (next a).Gates rest post := Iff.rfl

/-- A rule is called where it is admitted, and leaves what it says. -/
@[simp] theorem gates_call (rule : Rule) (next : Unit → Script) :
    (call rule next).Gates input post ↔ rule.Admits input ∧
      ∀ rest, rest <:+ input → rule.Leaves input rest → (next ()).Gates rest post := by
  simp [call, Script.Gates]

/-! ## Combinations -/

/-- Whether the kind is there is known from the input. -/
@[simp] theorem gates_isAt (k : Kind) (next : Bool → Script) :
    (isAt k next).Gates input post ↔ (next (kindAt input 0 == k)).Gates input post := Iff.rfl

/-- Whether a kind of the set is there is known from the input. -/
@[simp] theorem gates_isAtAny (set : TokenSet) (next : Bool → Script) :
    (isAtAny set next).Gates input post ↔
      (next (set.contains (kindAt input 0))).Gates input post := Iff.rfl

/-- The token is consumed exactly if it is there. -/
@[simp] theorem gates_eat (k : Kind) (next : Bool → Script) :
    (eat k next).Gates input post ↔
      if kindAt input 0 = k then ∀ p rest, input = p :: rest → (next true).Gates rest post
      else (next false).Gates input post := by
  by_cases h : kindAt input 0 = k <;> simp [eat, h]

/-- What may be eaten is eaten exactly if it is there. -/
private theorem forall_mayEat_iff {k : Kind} {P : List (Kind × String) → Prop} :
    (∀ rest, MayEat k input rest → P rest) ↔
      if kindAt input 0 = k then ∀ p rest, input = p :: rest → P rest else P input := by
  by_cases h : kindAt input 0 = k
  · simp only [MayEat, h, ↓reduceIte, forall_exists_index]
    exact ⟨fun hP p rest hinput => hP rest p hinput, fun hP rest p hinput => hP p rest hinput⟩
  · simp [MayEat, h]

/-- The token is consumed exactly if it is there. -/
@[simp] theorem gates_optionally (k : Kind) (next : Unit → Script) :
    (optionally k next).Gates input post ↔
      ∀ rest, MayEat k input rest → (next ()).Gates rest post := by
  rw [forall_mayEat_iff]
  simp [optionally]

/-- The token is consumed exactly if it is there. -/
@[simp] theorem gates_expect (k : Kind) (what : String) (next : Bool → Script) :
    (expect k what next).Gates input post ↔
      if kindAt input 0 = k then ∀ p rest, input = p :: rest → (next true).Gates rest post
      else (next false).Gates input post := by
  simp [expect]

/-- The token is consumed exactly if it is there. -/
@[simp] theorem gates_require (k : Kind) (what : String) (next : Unit → Script) :
    (require k what next).Gates input post ↔
      ∀ rest, MayEat k input rest → (next ()).Gates rest post := by
  rw [forall_mayEat_iff]
  simp [require]

/-- The name is consumed exactly if it is there. -/
@[simp] theorem gates_identifier (what : String) (next : Unit → Script) :
    (identifier what next).Gates input post ↔
      ∀ rest, MayEat .identifier input rest → (next ()).Gates rest post := by
  rw [forall_mayEat_iff]
  simp [identifier]

/-- What is set aside has no gate. -/
@[simp] theorem gates_setAside (problem : Problem) (what : String) (stops : TokenSet)
    (body : Fragment Unit) (next : Unit → Script) :
    (setAside problem what stops body next).Gates input post ↔
      ∀ p rest, input = p :: rest → ∀ rest', rest' <:+ rest →
        body.unit.Gates rest' fun _ rest => (next ()).Gates rest post := by
  rw [setAside, gates_node_free rfl]
  simp [unit, Rule.Admits, Rule.Leaves]

/-- A rule is entered only at its first token, so that may be assumed. -/
@[simp] theorem gates_entered (k : Kind) (next : Unit → Script) :
    (entered k next).Gates input post ↔ (kindAt input 0 = k → (next ()).Gates input post) := by
  unfold entered
  show (if kindAt input 0 = k then next () else .fail _ : Script).Gates input post ↔ _
  split <;> simp_all [Script.Gates]

end Fragment

/-! ## Parts of rules -/

namespace Grammar

open Fragment

variable {input : List (Kind × String)} {post : Bool → List (Kind × String) → Prop}

/-- The look at whether a record begins is decided by the tokens ahead alone. -/
@[simp] theorem gates_atRecordBody (next : Bool → Script) :
    (atRecordBody next).Gates input post ↔ (next (startsRecord input)).Gates input post := by
  simp only [atRecordBody, startsRecord, gates_bind, gates_ahead, gates_ite, gates_pure]
  by_cases hname : TokenSet.identifierNames.contains (kindAt input 1) = true
  · by_cases hcolon : kindAt input 2 = .colon <;> simp [hname, hcolon]
  · simp [hname]

/-- The look at whether a function literal begins is decided by the tokens ahead alone. -/
@[simp] theorem gates_atFnLiteral (next : Bool → Script) :
    (atFnLiteral next).Gates input post ↔ (next (startsFnLiteral input)).Gates input post := by
  simp only [atFnLiteral, startsFnLiteral, gates_bind, gates_ahead]
  generalize kindAt input 1 = k
  split
  · simp
  · by_cases hcolon : kindAt input 2 = .colon <;> simp [hcolon]
  · simp_all

/-- The look at which accessor comes is decided by the tokens ahead alone. -/
@[simp] theorem gates_accessorHere (next : Option Accessor → Script) :
    (accessorHere next).Gates input post ↔ (next (accessorAt input)).Gates input post := by
  simp only [accessorHere, accessorAt, gates_bind, gates_current]
  generalize kindAt input 0 = k
  split <;> simp
  split <;> simp_all

end Grammar

/-- Behind a closer that may be missing, the rest of the labels is ahead. -/
private theorem afterCloser_suffix (d : Delimiter) (input : List (Kind × String)) :
    afterCloser d input <:+ input := by
  unfold afterCloser
  split
  · exact List.tail_suffix input
  · exact List.suffix_rfl

namespace Rule

variable {input rest rest' : List (Kind × String)}

/-- What comes after the parameters only takes more. -/
theorem Leaves.of_suffix (h : fnTail.Leaves input rest) (hsuffix : rest' <:+ rest) :
    fnTail.Leaves input rest' := by
  intro hopen
  have hle := hsuffix.length_le
  obtain ⟨hempty, hnamed⟩ := h hopen
  refine ⟨fun h1 => ?_, fun h1 h2 => ?_⟩
  · have := hempty h1
    omega
  · have := hnamed h1 h2
    omega

/-- The parameter list takes an opener, what its elements take, and the closer. -/
private theorem leaves_paramList (p : Kind × String) (hsuffix : rest' <:+ rest)
    (h : (elements .params).Leaves rest rest') :
    fnTail.Leaves (p :: rest) (afterCloser .paren rest') := by
  intro _
  simp only [kindAt_cons_succ, List.length_cons]
  have hle := (afterCloser_suffix .paren rest').length_le
  refine ⟨fun hclose => ?_, fun hname hcolon => ?_⟩
  · -- Unless the elements take something, the closer comes next.
    by_cases heq : rest' = rest
    · subst heq
      cases rest' with
      | nil => simp at hclose
      | cons q rest =>
        have htail : afterCloser .paren (q :: rest) = rest := by
          simp [afterCloser, hclose, Delimiter.closer]
        rw [htail, List.length_cons]
    -- If they do, two tokens are behind the parenthesis.
    · have hlt : rest'.length < rest.length := by
        have := hsuffix.length_le
        have : rest'.length ≠ rest.length := fun h => heq (hsuffix.eq_of_length h)
        omega
      omega
  -- A name and a colon are a parameter, which the elements have read.
  · have := h hname hcolon
    omega

end Rule

namespace Grammar

open Fragment

variable {input start : List (Kind × String)} {post : Bool → List (Kind × String) → Prop}

/-- The type and the body of a function come after its parameters. -/
private theorem gates_result (h : Rule.fnTail.Leaves start input) :
    ((do
      if ← eat .colon then call .typeList
      call .body : Fragment Unit) fun _ => .done true).Gates input
        fun _ rest => Rule.fnTail.Leaves start rest := by
  simp only [gates_bind, gates_eat, gates_call, gates_done, ↓reduceIte, Bool.false_eq_true]
  split
  · intro p rest hinput
    have hrest : rest <:+ input := hinput ▸ List.suffix_cons p rest
    refine ⟨trivial, fun rest₁ hrest₁ _ => ⟨trivial, fun rest₂ hrest₂ _ => ?_⟩⟩
    exact h.of_suffix ((hrest₂.trans hrest₁).trans hrest)
  · exact ⟨trivial, fun rest hrest _ => h.of_suffix hrest⟩

/-- The tail of a declaration of a function leaves the tokens that `Rule.Leaves` says. -/
private theorem gates_fnTail :
    fnTail.unit.Gates input fun _ rest => Rule.fnTail.Leaves input rest := by
  simp only [fnTail, unit, gates_bind, gates_isAt, beq_iff_eq, gates_ite]
  split
  · rw [gates_node_free rfl]
    simp only [delimited, unit, gates_bind, gates_entered, gates_enclosed, gates_call, gates_done]
    intro _ p rest hinput
    refine ⟨trivial, fun rest₁ hrest₁ hleaves => gates_result ?_⟩
    rw [hinput]
    exact Rule.leaves_paramList p hrest₁ hleaves
  · next hopen =>
    -- Without an opener nothing is asked of the rest.
    have hvacuous : ∀ rest, Rule.fnTail.Leaves input rest := fun _ h => absurd h hopen
    rw [gates_require]
    exact fun rest _ => gates_result (hvacuous rest)

/-- A parameter leaves the tokens that `Rule.Leaves` says. -/
private theorem gates_param :
    param.unit.Gates input fun _ rest => Rule.param.Leaves input rest := by
  rw [param, unit, gates_node_free rfl]
  simp only [ascription, unit, gates_bind, gates_bump, gates_expect, gates_call, gates_done,
    ↓reduceIte]
  intro p rest hinput
  subst hinput
  -- A parameter with a colon has a name in front of it; one without has no gate.
  split
  · next hcolon =>
    intro q rest₁ hinput₁
    subst hinput₁
    refine ⟨trivial, fun rest₂ hrest₂ _ _ => ?_⟩
    have := hrest₂.length_le
    simp only [List.length_cons]
    omega
  · next hcolon =>
    have hvacuous : ∀ rest', Rule.param.Leaves (p :: rest) rest' :=
      fun _ h => absurd h (by simpa using hcolon)
    simp [Rule.Admits, hvacuous]

/-- A parameter with its colon is taken, and what comes after it only takes more. -/
private theorem gates_elements_param (hname : kindAt input 0 = .identifier)
    (hcolon : kindAt input 1 = .colon) :
    (elements .params).unit.Gates input fun _ rest =>
      (Rule.elements .params).Leaves input rest := by
  -- The list has not ended: a name begins a parameter.
  have hempty : input.isEmpty = false := by
    cases input with
    | nil => simp at hname
    | cons p rest => rfl
  have hfirst : ListForm.params.first.contains .identifier = true := rfl
  have hcloser : Kind.identifier ≠ ListForm.params.delimiter.closer := by decide
  simp only [elements, unit, gates_bind, gates_stopped, gates_ite, gates_current, hempty, hname,
    hfirst, hcloser, gates_call, gates_eat, gates_isAtAny, gates_require, gates_pure, gates_done,
    ↓reduceIte, Bool.false_eq_true]
  -- Behind the parameter stands a comma, or the list ends.
  refine ⟨trivial, fun rest _ hparam => ?_⟩
  have htaken : ∀ rest', rest' <:+ rest → (Rule.elements .params).Leaves input rest' := by
    intro rest' hrest' _ _
    have hle : rest.length + 2 ≤ input.length := hparam hcolon
    have := hrest'.length_le
    omega
  have hcomma : ∀ p rest₁, rest = p :: rest₁ → (Rule.elements .params).Admits rest₁ ∧
      ∀ rest', rest' <:+ rest₁ → (Rule.elements .params).Leaves rest₁ rest' →
        (Rule.elements .params).Leaves input rest' := by
    intro p rest₁ hrest
    subst hrest
    exact ⟨trivial, fun rest' hrest' _ => htaken rest' (hrest'.trans (List.suffix_cons p rest₁))⟩
  split
  · exact hcomma
  next hno =>
  split
  · rw [forall_mayEat_iff, if_neg hno]
    exact ⟨trivial, fun rest' hrest' _ => htaken rest' hrest'⟩
  · exact htaken rest List.suffix_rfl

/-- The loop over elements leaves the tokens that `Rule.Leaves` says. -/
private theorem gates_elements (form : ListForm) :
    (elements form).unit.Gates input fun _ rest => (Rule.elements form).Leaves input rest := by
  cases form with
  | params =>
    by_cases hparam : kindAt input 0 = .identifier ∧ kindAt input 1 = .colon
    · exact gates_elements_param hparam.1 hparam.2
    · have hvacuous : ∀ rest, (Rule.elements .params).Leaves input rest :=
        fun _ hname hcolon => absurd ⟨hname, hcolon⟩ hparam
      simp +decide [elements, unit, ListForm.element, Rule.Admits, hvacuous]
  | _ => simp +decide [elements, unit, ListForm.element, Rule.Admits, Rule.Leaves]

/-- What begins with a name opens only nodes that pass their gates. -/
@[simp] theorem gates_namePrimary (next : Unit → Script) :
    (namePrimary next).Gates input post ↔
      ((if startsArray input = true then
          node .arrayLiteral do
            bump
            delimited .array
        else if kindAt input 1 = .lCurly then
          node .recordLiteral do
            bump
            delimited .record
        else node .nameRef bump : Fragment Unit) next).Gates input post := by
  -- The bracket decides whether a scalar type begins an array.
  by_cases hbracket : kindAt input 1 = .lBracket
  · have harray : startsArray input = scalarTypeNames.contains (frontText input) := by
      simp [startsArray, hbracket]
    simp only [namePrimary, harray, gates_bind, gates_ahead, gates_currentText, gates_ite,
      gates_pure, if_pos hbracket]
  · have harray : startsArray input = false := by simp [startsArray, hbracket]
    simp only [namePrimary, harray, gates_bind, gates_ahead, gates_ite, gates_pure,
      if_neg hbracket]

end Grammar

namespace Kind

variable {own after : List (Kind × String)}

/-- What a node starts with is its own if the node is long enough. -/
private theorem gate_fnLiteral (hopen : kindAt (own ++ after) 0 = .lParen)
    (hstarts : startsFnLiteral (own ++ after) = true)
    (hleaves : Rule.fnTail.Leaves (own ++ after) after) : Kind.fnLiteral.Gate own after := by
  obtain ⟨hempty, hnamed⟩ := hleaves hopen
  simp only [List.length_append] at hempty hnamed
  simp only [startsFnLiteral, Bool.or_eq_true, Bool.and_eq_true, decide_eq_true_eq,
    bne_iff_ne] at hstarts
  -- The lookahead found an empty list, or a name with a colon.
  obtain hclose | ⟨⟨hname, hcolon⟩, hno⟩ := hstarts
  -- The tokens it saw belong to the literal and not to what comes after.
  · have hle := hempty hclose
    have h0 : 0 < own.length := by omega
    have h1 : 1 < own.length := by omega
    rw [kindAt_append h0] at hopen
    rw [kindAt_append h1] at hclose
    exact ⟨hopen, .inl hclose⟩
  · have hle := hnamed hname hcolon
    have h0 : 0 < own.length := by omega
    have h1 : 1 < own.length := by omega
    have h2 : 2 < own.length := by omega
    rw [kindAt_append h0] at hopen
    rw [kindAt_append h1] at hname
    rw [kindAt_append h2] at hcolon
    exact ⟨hopen, .inr ⟨hname, hcolon, hno⟩⟩

/-- The first token of a node is its own if it has any. -/
private theorem gate_arrayLiteral (h : kindAt (own ++ after) 0 = .identifier →
    startsArray (own ++ after) = true) : Kind.arrayLiteral.Gate own after := by
  intro hname
  cases own with
  | nil => simp at hname
  | cons p own =>
    have harray := h (by simpa [kindAt] using hname)
    simp [startsArray, frontText] at harray
    simpa [frontText] using harray.2

end Kind

namespace Grammar

open Fragment

variable {input : List (Kind × String)}

/-- A bracket after a scalar name opens an array, and a brace after any name a record. -/
private theorem gates_name (h : kindAt input 0 = .identifier) :
    (namePrimary fun _ => .done true).Gates input fun _ _ => True := by
  rw [gates_namePrimary, gates_ite, gates_ite]
  -- An array literal, a record literal or a plain name, as the parser decides it.
  split
  · next harray =>
    rw [gates_node_of fun own rest hinput => Kind.gate_arrayLiteral fun _ => hinput ▸ harray]
    simp [delimited, unit, Rule.Admits]
  · next harray =>
    split
    · simp +decide [delimited, unit, Rule.Admits]
    · next hrecord =>
      simp only [gates_node, unit, gates_bump, gates_done, and_true]
      intro p rest hinput own hown
      have hone : own = [p] := by
        have happend : own ++ rest = [p] ++ rest := by rw [← hown, hinput, List.singleton_append]
        exact List.append_cancel_right happend
      obtain ⟨k, name⟩ := p
      rw [hinput] at h hrecord harray
      obtain rfl : k = .identifier := by simpa using h
      refine ⟨name, hone, by simpa using hrecord, fun hbracket hscalar => harray ?_⟩
      simp [startsArray, hbracket, hscalar]

/-- Behind a parenthesis that opens a function literal there are its parameters; behind any other
    there is an expression. -/
private theorem gates_paren (h : kindAt input 0 = .lParen) :
    ((do
      if ← atFnLiteral then node .fnLiteral (call .fnTail)
      else node .parenExpr (enclosed .paren "parenthesized expression" (call .expr)) :
        Fragment Unit) fun _ => .done true).Gates input fun _ _ => True := by
  rw [gates_bind, gates_atFnLiteral, gates_ite]
  -- The parser has looked ahead for the arrow of a function literal.
  split
  · next hstarts =>
    simp only [gates_node, unit, gates_call, gates_done, and_true]
    refine ⟨trivial, fun rest _ hleaves own hinput => ?_⟩
    subst hinput
    exact Kind.gate_fnLiteral h hstarts hleaves
  · next hstarts =>
    have hgate : ∀ own rest, input = own ++ rest → Kind.parenExpr.Gate own rest := by
      intro own rest hinput
      subst hinput
      exact ⟨h, by simpa using hstarts⟩
    rw [gates_node_of hgate]
    simp [unit, Rule.Admits]

/-- The name behind a dot may leave any tokens. -/
private theorem gates_memberName (after : String) {next : Unit → Script}
    {post : Bool → List (Kind × String) → Prop} (h : ∀ rest, (next ()).Gates rest post) :
    (memberName after next).Gates input post := by
  simp only [memberName, gates_bind, gates_isAtAny, gates_ite, gates_bump, gates_missing]
  split
  · exact fun _ rest _ => h rest
  · exact h input

/-- An accessor may leave any tokens. -/
private theorem gates_accessor (a : Accessor) {next : Unit → Script}
    {post : Bool → List (Kind × String) → Prop} (h : ∀ rest, (next ()).Gates rest post) :
    (accessor a next).Gates input post := by
  have hfree : a.kind.isGated = false := by cases a <;> rfl
  unfold accessor
  rw [gates_node_free hfree]
  cases a with
  | field => exact fun _ _ _ => gates_memberName "`.`" h
  | static => exact fun _ _ _ _ _ _ => gates_memberName "`::`" h
  | index => simp [unit, Rule.Admits, h]
  | arguments => simp [delimited, unit, Rule.Admits, h]
  | nonNull => simp [unit, h]

/-- What a member declares, after its modifiers. -/
private theorem gates_declaration (k : Kind) {post : Bool → List (Kind × String) → Prop}
    (h : ∀ rest, post true rest) :
    ((match k with
      | .kwFunction => do
        call .fnDecl
        optionally .semiColon
      | .identifier => do
        attrDecl
        optionally .semiColon
      | _ => do
        missing .expectedIdentifier "an attribute or function declaration"
        optionally .semiColon : Fragment Unit) fun _ => .done true).Gates input post := by
  split <;> simp +decide [attrDecl, ascription, unit, Rule.Admits, h]

/-- The recovery from a missing variable may leave any tokens. -/
private theorem gates_missingVariable {next : Unit → Script}
    {post : Bool → List (Kind × String) → Prop}
    (h : ∀ rest, (next ()).Gates rest post) : (missingVariable next).Gates input post := by
  simp +decide [missingVariable, unit, Rule.Admits, h]

/-- A declaration of a variable opens only nodes that pass their gates. -/
private theorem gates_varStmt : (varStmt fun _ => .done true).Gates input fun _ _ => True := by
  have htail (rest : List (Kind × String)) : ((do
      if ← eat .colon then call .typeList
      if ← isAt .eq then call .initializer
      optionally .semiColon : Fragment Unit) fun _ => .done true).Gates rest fun _ _ => True := by
    simp [Rule.Admits]
  rw [varStmt, gates_node_free rfl, unit, gates_bind, gates_bump]
  intro p rest hinput
  rw [gates_bind, gates_eat]
  split
  · exact fun q rest' _ => htail rest'
  · exact gates_missingVariable fun rest' => htail rest'

end Grammar

/-! ## The rules

One lemma for each rule. -/

/-- A rule whose nodes pass their gates, and that leaves of the tokens what it promises. -/
def Rule.IsGated (rule : Rule) : Prop :=
  ∀ {input : List (Kind × String)}, rule.Admits input →
    rule.script.Gates input fun _ rest => rule.Leaves input rest

private theorem Rule.gates_primary : Rule.IsGated .primary := by
  intro input h
  simp only [script, Grammar.primary, Fragment.unit, Leaves, Fragment.gates_bind,
    Fragment.gates_current]
  generalize hk : kindAt input 0 = k
  -- The cases that look further ahead than one token have lemmas of their own.
  split
  case h_1 => exact Grammar.gates_name hk
  case h_2 => simp +decide [Fragment.unit]
  case h_3 => simp +decide [Grammar.delimited, Fragment.unit, Admits]
  case h_4 =>
    have hname : kindAt input 0 ≠ .identifier := by simp [hk]
    have hgate : ∀ own rest, input = own ++ rest → Kind.arrayLiteral.Gate own rest := by
      intro own rest hinput
      subst hinput
      exact Kind.gate_arrayLiteral fun h => absurd h hname
    rw [Fragment.gates_node_of hgate]
    simp [Grammar.delimited, Fragment.unit, Admits]
  case h_5 => exact Grammar.gates_paren hk
  case h_6 => simp +decide [Fragment.unit]

private theorem Rule.gates_block : Rule.IsGated .block := by
  intro input h
  have hgate : ∀ own rest, input = own ++ rest → Kind.block.Gate own rest :=
    fun own rest hinput hopen => hinput ▸ h (hinput ▸ hopen)
  simp only [script, Grammar.block, Fragment.unit]
  rw [Fragment.gates_node_of hgate]
  simp [Fragment.unit, Fragment.script, Admits, Leaves]

private theorem Rule.gates_statement : Rule.IsGated .statement := by
  intro input h
  simp only [script, Grammar.statement, Fragment.unit, Leaves, Fragment.gates_bind,
    Fragment.gates_deeper, Fragment.gates_current]
  generalize hk : kindAt input 0 = k
  -- A brace may begin a record, and `var` may begin a declaration.
  split
  case h_1 =>
    rw [Fragment.gates_bind, Grammar.gates_atRecordBody, Fragment.gates_ite]
    split
    · simp +decide [Grammar.exprStmt, Fragment.unit, Admits]
    · next hrecord => simp [Admits, hrecord]
  case h_5 => exact Grammar.gates_varStmt
  all_goals
    simp +decide [Grammar.exprStmt, Grammar.whileStmt, Grammar.forStmt, Grammar.returnStmt,
      Grammar.recoverStatement, Grammar.condition, Fragment.unit, Admits]

private theorem Rule.gates_item : Rule.IsGated .item := by
  intro input h
  simp only [script, Grammar.item, Fragment.unit, Leaves, Fragment.gates_bind,
    Fragment.gates_current]
  generalize kindAt input 0 = k
  split <;> simp [Fragment.unit, Admits]

private theorem Rule.gates_members : Rule.IsGated .members := by
  intro input h
  simp only [script, Grammar.members, Fragment.unit, Leaves, Fragment.gates_bind,
    Fragment.gates_stopped, Fragment.gates_ite, Fragment.gates_current]
  generalize kindAt input 0 = k
  split
  · simp
  split <;> simp [Fragment.unit, Admits]

private theorem Rule.gates_member : Rule.IsGated .member := by
  intro input h
  simp only [script, Grammar.typeMember, Fragment.unit, Leaves]
  rw [Fragment.gates_node_free rfl]
  simp only [Fragment.unit, Fragment.gates_bind, Fragment.gates_current]
  generalize kindAt input 0 = k
  split
  all_goals
    simp only [Fragment.gates_bind, Fragment.gates_bump, Fragment.gates_optionally,
      Fragment.gates_current]
  · exact fun _ _ _ rest _ => Grammar.gates_declaration _ fun _ => trivial
  · exact fun _ _ _ rest _ => Grammar.gates_declaration _ fun _ => trivial
  · exact Grammar.gates_declaration _ fun _ => trivial

private theorem Rule.gates_statements (seen : Bool) : Rule.IsGated (.statements seen) := by
  intro input h
  simp only [script, Grammar.statements, Fragment.script, Leaves, Fragment.gates_bind,
    Fragment.gates_stopped, Fragment.gates_ite, Fragment.gates_current]
  generalize kindAt input 0 = k
  split
  · simp
  split <;> simp [Grammar.recoverStatement, Fragment.unit, Admits]

private theorem Rule.gates_accessors (wrapped : Bool) : Rule.IsGated (.accessors wrapped) := by
  intro input h
  simp only [script, Grammar.accessors, Fragment.unit, Fragment.gates_bind,
    Grammar.gates_accessorHere]
  -- Each accessor is a node around what was read so far.
  cases accessorAt input with
  | none => trivial
  | some a =>
    have hmore : (Grammar.accessor a fun _ =>
        Fragment.call (.accessors true) fun _ => .done true).Gates input fun _ _ => True :=
      Grammar.gates_accessor a fun rest => by simp [Admits]
    cases wrapped with
    | true => exact hmore
    | false =>
      rw [Fragment.gates_ite, if_neg Bool.false_ne_true, Fragment.gates_wrap]
      exact ⟨rfl, hmore⟩

private theorem Rule.gates_program : Rule.IsGated .program := by
  intro input h
  simp [script, Grammar.program, Fragment.unit, Admits, Leaves]

private theorem Rule.gates_imports : Rule.IsGated .imports := by
  intro input h
  simp [script, Grammar.imports, Fragment.unit, Admits, Leaves]

private theorem Rule.gates_items : Rule.IsGated .items := by
  intro input h
  simp [script, Grammar.items, Fragment.unit, Admits, Leaves]

private theorem Rule.gates_importDecl : Rule.IsGated .importDecl := by
  intro input h
  simp +decide [script, Grammar.importDecl, Fragment.unit, Leaves]

private theorem Rule.gates_fnDecl : Rule.IsGated .fnDecl := by
  intro input h
  simp +decide [script, Grammar.fnDecl, Fragment.unit, Admits, Leaves]

private theorem Rule.gates_typeDecl : Rule.IsGated .typeDecl := by
  intro input h
  simp +decide [script, Grammar.typeDecl, Fragment.unit, Admits, Leaves]

private theorem Rule.gates_body : Rule.IsGated .body := by
  intro input h
  simp +decide [script, Grammar.body, Fragment.unit, Admits, Leaves]

private theorem Rule.gates_ifStmt (terminated : Bool) : Rule.IsGated (.ifStmt terminated) := by
  intro input h
  simp +decide [script, Grammar.ifStmt, Grammar.condition, Fragment.unit, Admits, Leaves]

private theorem Rule.gates_initializer : Rule.IsGated .initializer := by
  intro input h
  simp +decide [script, Grammar.initializer, Fragment.unit, Admits, Leaves]

private theorem Rule.gates_expr : Rule.IsGated .expr := by
  intro input h
  simp [script, Grammar.expr, Fragment.unit, Admits, Leaves]

private theorem Rule.gates_chain : Rule.IsGated .chain := by
  intro input h
  simp +decide [script, Grammar.chain, Grammar.unary, Fragment.unit, Admits, Leaves]

private theorem Rule.gates_prefixes (count : Nat) : Rule.IsGated (.prefixes count) := by
  intro input h
  simp +decide [script, Grammar.prefixes, Grammar.prefixOperand, Fragment.unit, Admits, Leaves]

private theorem Rule.gates_operand : Rule.IsGated .operand := by
  intro input h
  simp +decide [script, Grammar.operand, Grammar.member, Fragment.unit, Admits, Leaves]

private theorem Rule.gates_recordProp : Rule.IsGated .recordProp := by
  intro input h
  simp +decide [script, Grammar.recordProp, Fragment.unit, Admits, Leaves]

private theorem Rule.gates_typeList : Rule.IsGated .typeList := by
  intro input h
  simp +decide [script, Grammar.typeList, Fragment.unit, Admits, Leaves]

private theorem Rule.gates_unionTail : Rule.IsGated .unionTail := by
  intro input h
  simp [script, Grammar.unionTail, Fragment.unit, Admits, Leaves]

private theorem Rule.gates_typeName : Rule.IsGated .typeName := by
  intro input h
  simp +decide [script, Grammar.typeName, Grammar.typeArgs, Fragment.unit, Admits, Leaves]

private theorem Rule.gates_typeArgTail : Rule.IsGated .typeArgTail := by
  intro input h
  simp [script, Grammar.typeArgTail, Fragment.unit, Admits, Leaves]

private theorem Rule.gates_discard (stops : TokenSet) : Rule.IsGated (.discard stops) := by
  intro input h
  simp [script, Grammar.discard, Fragment.unit, Admits, Leaves]

private theorem Rule.gates_skipTo (stops : TokenSet) : Rule.IsGated (.skipTo stops) := by
  intro input h
  simp [script, Grammar.skipTo, Fragment.unit, Admits, Leaves]

/-- The script of each rule opens only nodes that pass their gates. -/
theorem Rule.gates {input : List (Kind × String)} (rule : Rule) (h : rule.Admits input) :
    rule.script.Gates input fun _ rest => rule.Leaves input rest := by
  -- Of the rules only those that follow a lookahead promise anything about it.
  have hrule : rule.IsGated := by
    cases rule with
    | fnTail => exact fun _ => Grammar.gates_fnTail
    | elements form => exact fun _ => Grammar.gates_elements form
    | param => exact fun _ => Grammar.gates_param
    | primary => exact gates_primary
    | block => exact gates_block
    | statement => exact gates_statement
    | item => exact gates_item
    | members => exact gates_members
    | member => exact gates_member
    | statements seen => exact gates_statements seen
    | accessors wrapped => exact gates_accessors wrapped
    | program => exact gates_program
    | imports => exact gates_imports
    | items => exact gates_items
    | importDecl => exact gates_importDecl
    | fnDecl => exact gates_fnDecl
    | typeDecl => exact gates_typeDecl
    | body => exact gates_body
    | ifStmt terminated => exact gates_ifStmt terminated
    | initializer => exact gates_initializer
    | expr => exact gates_expr
    | chain => exact gates_chain
    | prefixes count => exact gates_prefixes count
    | operand => exact gates_operand
    | recordProp => exact gates_recordProp
    | typeList => exact gates_typeList
    | unionTail => exact gates_unionTail
    | typeName => exact gates_typeName
    | typeArgTail => exact gates_typeArgTail
    | discard stops => exact gates_discard stops
    | skipTo stops => exact gates_skipTo stops
  exact hrule h

/-- What a rule places passes the gates. -/
theorem Rule.run_gated (budget : Nat) : Rule.Gated (Rule.run g budget) := by
  intro rule s a s' labels hrun hlive hadmits h
  induction budget generalizing rule s a s' labels with
  | zero => cases hrun
  | succ budget ih =>
    have hrules : Rule.Gated (Rule.run g budget) := fun _ _ _ _ _ => ih _ _ _ _ _
    exact Script.run_gated hrules (fun _ _ _ _ => Rule.run_later) (rule.gates hadmits) hrun hlive h

/-! ## Trees -/

/-- Every node of a tree passes its gate, where only the tokens that the grammar sees count: no name
    is followed by a brace, and none before a bracket is that of a scalar; an array that begins with
    a name begins with that of a scalar; a function literal begins with `( )` or `( name :` without
    a second colon, and no expression in parentheses does; and no block begins with a brace and
    `name :` without a second colon. -/
theorem parse_gated {o : Options} {source : String} {p : Parsed}
    (h : parse o source = .ok (.ok p)) :
    ∀ site ∈ p.tree.significant.sites [] [], site.kind.Gate site.own site.after := by
  obtain ⟨a, s, hrun, hfinish⟩ := parseLexed_eq_ok_iff.mp h
  obtain ⟨hexhausted, hhalted, htree, -⟩ := State.finish_eq_ok hfinish
  have hinitial : (State.initial (Token.lex source) o.stepLimit).Surveyed Kind.Gate
      ((Token.significant (Token.lex source)).map Token.label) :=
    ⟨by simp [State.Waits, State.initial], by simp [State.reading, State.initial],
      by simp [State.reading, State.initial]⟩
  -- Every site in the frame was surveyed when its node was finished.
  obtain ⟨-, hwaits, -, hsites⟩ :=
    Rule.run_gated _ _ _ _ _ _ hrun ⟨hexhausted, hhalted⟩ trivial hinitial
  have hinput : s.reading.input = [] := by
    obtain ⟨hrest, -⟩ := Rule.run_program_rest hrun hexhausted hhalted
    simp [State.reading, hrest, Token.significant]
  rw [hinput] at hsites
  intro site hsite
  -- The root has no condition of its own.
  have hroot : Tree.AllSites Kind.Gate [] [p.tree.significant] := by
    rw [htree, Tree.significant, Tree.erase, Tree.allSites_node]
    exact ⟨trivial, hsites⟩
  apply Tree.AllSites.of_mem hroot site
  show site ∈ Tree.sitesOf [] [] [p.tree.significant]
  simpa [Tree.sitesOf] using hsite

/-- A name before an index, and in the index a function whose body is missing. -/
theorem parse_gated_function : ∃ p, parse .default "a[(/**/)" = .ok (.ok p) ∧
    p.diagnostics.map (·.problem) = [.expectedToken] ∧
    (p.tree.significant.sites [] []).map (fun site : Site => site.kind) =
      [.program, .exprStmt, .memberExpr, .nameRef, .indexAccess, .fnLiteral, .paramList,
        .logicBlock] ∧
    ∀ site ∈ p.tree.significant.sites [] [], site.kind.Gate site.own site.after := by
  have hparse : parse .default "a[(/**/)" = .ok (.ok
      ⟨.node .program
        [.node .exprStmt
          [.node .memberExpr
            [.node .nameRef [.leaf .identifier "a"],
              .node .indexAccess
                [.leaf .lBracket "[",
                  .node .fnLiteral
                    [.node .paramList
                      [.leaf .lParen "(", .leaf .blockComment "/**/", .leaf .rParen ")"],
                      .node .logicBlock []]]]]],
      [{ Diagnostic.ofProblem .expectedToken ⟨8, 8, by decide⟩ with
          region := ⟨1, 8, by decide⟩
          message := "expected `\x7b` to start a block"
          expected := some "`\x7b`", found := some "end of file" }]⟩) := by decide +kernel
  exact ⟨_, hparse, rfl, rfl, parse_gated hparse⟩

end ScriptTree
