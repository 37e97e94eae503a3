import ScriptTree.Proofs.Analyses
import ScriptTree.Proofs.Limits
import ScriptTree.Proofs.Signs
import ScriptTree.Proofs.Sites

/-!
# Where the steps run out

A parse that has run out of steps still consumes tokens: `State.bump` lets them through, and the
rules see it only where they ask whether the parse came to its end.  The loops over imports, items,
statements, members and elements ask before each round.  So none of these begins after the last step
was taken, and declarations in a type, which come after two modifiers at most, begin hardly later
(`Kind.grace`).

`Script.Paced` walks through a script and keeps how many tokens were consumed beyond the limit, as
far as that is known: none where the parse is known to go on, one more after each token, and any
number after a rule was called.

## Key results

- `Rule.paced`: no rule begins a node too late
- `lastState_paced`: where the nodes of a tree begin, whether or not the steps ran out
-/

namespace ScriptTree

/-! ## Kinds and rules -/

/-- How many tokens beyond the limit a node of a kind may begin, if that is bounded. -/
@[simp] def Kind.grace : Kind → Option Nat
  | .program | .importDecl | .typeDecl | .typeMember | .param | .recordProp | .block
  | .whileStmt | .forStmt | .varStmt | .returnStmt | .error => some 0
  | .fnDecl | .attrDecl => some 2
  | _ => none

/-- How many tokens beyond the limit a rule may be called, if that is bounded. -/
@[simp] def Rule.grace : Rule → Option Nat
  | importDecl | typeDecl | member | param | recordProp | block | statement | item => some 0
  | fnDecl => some 2
  | _ => none

@[simp] theorem tighter_none (excess : Option Nat) : Tighter excess none := by simp [Tighter]

@[simp] theorem tighter_some {i j : Nat} : Tighter (some i) (some j) ↔ i ≤ j := by simp [Tighter]

@[simp] theorem not_tighter_none {j : Nat} : ¬ Tighter none (some j) := by simp [Tighter]

/-- The script begins nodes and calls rules only where they may begin; `excess` tells how many
    tokens were consumed beyond the limit, if that is bounded. -/
def Script.Paced : Script → (excess : Option Nat) → Prop
  | .done _, _ => True
  | .fail _, _ => True
  | .look _ next, excess => ∀ k, (next k).Paced excess
  | .text next, excess => ∀ text, (next text).Paced excess
  -- A parse that goes on is within the limit.
  | .stopped next, excess => (next true).Paced excess ∧ (next false).Paced (some 0)
  | .exhausted next, excess => (next true).Paced excess ∧ (next false).Paced (some 0)
  | .bump next, excess => next.Paced (excess.map (· + 1))
  | .flush next, excess => next.Paced excess
  | .complain _ next, excess => next.Paced excess
  | .remark _ next, excess => next.Paced excess
  | .node k body next, excess => Tighter excess k.grace ∧ body.Paced excess ∧ next.Paced none
  | .group body next, excess => body.Paced excess ∧ next.Paced none
  -- A node around what is there began earlier than is known here.
  | .wrap k body next, excess => k.grace = none ∧ body.Paced excess ∧ next.Paced none
  | .deeper body next, excess => body.Paced excess ∧ ∀ granted, (next granted).Paced none
  | .enclosed _ _ _ body next, _ => body.Paced none ∧ next.Paced none
  | .call rule next, excess => Tighter excess rule.grace ∧ ∀ a, (next a).Paced none

/-! ## Runs -/

/-- A node begins in time: with its own tokens and those after it, the tokens within the limit and
    its grace make up all there are. -/
def Kind.Timely (total limit : Nat) (k : Kind) (own after : List (Kind × String)) : Prop :=
  ∀ j ∈ k.grace, total ≤ limit + j + (own ++ after).length

namespace State

variable {g : Setting} {s s' : State} {total limit : Nat} {excess : Option Nat}

/-- Of `total` tokens, so many were consumed beyond the limit.  As long as nothing ran out, each
    token took a step. -/
structure Overruns (total limit : Nat) (excess : Option Nat) (s : State) : Prop where
  paid : s.exhausted = none → ∃ left, s.steps = some left ∧ total + left = limit + s.distance
  bounded : ∀ i ∈ excess, total ≤ limit + i + s.distance

/-- As many labels are ahead as there is distance to the end. -/
private theorem length_input (s : State) : s.reading.input.length = s.distance := by
  simp [reading, distance]

/-- Further on, nothing is known of the excess. -/
theorem Overruns.later (hexcess : Overruns total limit excess s) (h : s.Later g s') :
    Overruns total limit none s' := by
  refine ⟨fun hexhausted => ?_, by simp⟩
  obtain ⟨left, hsteps, hsum⟩ := hexcess.paid (h.exhausted hexhausted)
  have hpaid := h.paid hexhausted
  rw [hsteps, Option.map_some] at hpaid
  obtain ⟨left', hleft', hsum'⟩ := Option.map_eq_some_iff.mp hpaid
  exact ⟨left', hleft', by omega⟩

/-- Where nothing is consumed, nothing more is consumed beyond the limit. -/
theorem Overruns.still (hexcess : Overruns total limit excess s) (h : s.Later g s')
    (hinput : s'.reading.input = s.reading.input) : Overruns total limit excess s' := by
  refine ⟨(hexcess.later h).paid, ?_⟩
  rw [← length_input, hinput, length_input]
  exact hexcess.bounded

/-- Where steps are left, no token was consumed beyond the limit. -/
theorem Overruns.within (hexcess : Overruns total limit excess s) (h : s.exhausted = none) :
    Overruns total limit (some 0) s := by
  refine ⟨hexcess.paid, fun i hi => ?_⟩
  obtain rfl : 0 = i := by simpa using hi
  obtain ⟨left, -, hsum⟩ := hexcess.paid h
  omega

/-- One more token may be beyond the limit after one was eaten. -/
theorem Overruns.eats (hexcess : Overruns total limit excess s) (h : s.Later g s') {k : Kind}
    (heats : s.reading.Eats k s'.reading) : Overruns total limit (excess.map (· + 1)) s' := by
  obtain ⟨text, hinput, -⟩ := heats
  refine ⟨(hexcess.later h).paid, fun i hi => ?_⟩
  obtain ⟨j, hj, rfl⟩ := Option.map_eq_some_iff.mp hi
  have hbounded := hexcess.bounded j hj
  rw [← length_input, hinput, List.length_cons, length_input] at hbounded
  omega

/-- What an opener pushes has no part in it. -/
theorem Overruns.openDelimiter (hexcess : Overruns total limit excess s) {d : Delimiter}
    (hopen : s.openDelimiter g d = .ok s') : Overruns total limit none s' := by
  have hskip := hexcess.later (later_skip g s)
  have hpushed : Overruns total limit none { s.skip g with
      delimiters := (d, (s.skip g).frontSpan g) :: (s.skip g).delimiters } :=
    ⟨hskip.paid, hskip.bounded⟩
  exact hpushed.later (later_lasting.bump hopen)

/-- After a delimiter was closed nothing is known of the excess. -/
theorem Overruns.closeDelimiter (hexcess : Overruns total limit excess s) {d : Delimiter}
    {construct : String} (hclose : s.closeDelimiter g d construct = .ok s') :
    Overruns total limit none s' := by
  have hpopped : Overruns total limit excess { s with delimiters := s.delimiters.tail } :=
    ⟨hexcess.paid, hexcess.bounded⟩
  exact hpopped.later (later_lasting.closeDelimiter hclose)

/-- What was placed has no part in it. -/
theorem Overruns.withFrame (hexcess : Overruns total limit excess s) (f : Array Tree) :
    Overruns total limit excess { s with frame := f } := ⟨hexcess.paid, hexcess.bounded⟩

/-- The frame has nothing to do with the excess. -/
theorem Overruns.emptied (hexcess : Overruns total limit excess s) :
    Overruns total limit excess { s.drain with frame := #[] } := ⟨hexcess.paid, hexcess.bounded⟩

/-- It does no harm to know less of the excess. -/
private theorem Overruns.unbounded (hexcess : Overruns total limit excess s) :
    Overruns total limit none s := ⟨hexcess.paid, by simp⟩

/-- A node that is opened within the grace of its kind is timely. -/
private theorem Overruns.timely (hexcess : Overruns total limit excess s) {k : Kind}
    (hk : Tighter excess k.grace) {own after : List (Kind × String)}
    (hinput : own ++ after = s.reading.input) : k.Timely total limit own after := by
  intro j hj
  obtain ⟨i, hi, hle⟩ := hk j hj
  have hbounded := hexcess.bounded i hi
  rw [hinput, length_input]
  omega

end State

variable {g : Setting} {total limit : Nat}

/-- What a rule does that is called in time: the nodes that it places begin in time. -/
def Rule.Paced (total limit : Nat) (rules : Rule → State → Reply) : Prop :=
  ∀ rule s a s' labels excess, rules rule s = .ok (a, s') → Tighter excess rule.grace →
    State.Overruns total limit excess s → s.Surveyed (Kind.Timely total limit) labels →
    s'.Surveyed (Kind.Timely total limit) labels

/-- From the state the script keeps its pace, and what that shows of the outcome is what is
    claimed. -/
def Script.KeepsPace (total limit : Nat) (script : Script) (s : State)
    (goal : Bool → State → Prop) : Prop :=
  ∃ excess labels, script.Paced excess ∧ State.Overruns total limit excess s ∧
    s.Surveyed (Kind.Timely total limit) labels ∧
      ∀ a s', State.Overruns total limit none s' → s'.Surveyed (Kind.Timely total limit) labels →
        goal a s'

namespace Script.KeepsPace

variable {script next body : Script} {s s' s₁ : State} {goal goal' : Bool → State → Prop}

/-- The pace may be kept for a weaker goal. -/
theorem mono (h : script.KeepsPace total limit s goal) (hgoal : ∀ a s', goal a s' → goal' a s') :
    script.KeepsPace total limit s goal' := by
  obtain ⟨excess, labels, hpaced, hexcess, hs, hshown⟩ := h
  exact ⟨excess, labels, hpaced, hexcess, hs, fun a s' hexcess' hs' =>
    hgoal a s' (hshown a s' hexcess' hs')⟩

/-- A parse that goes on is within the limit, so the count begins anew. -/
theorem step (hstep : Step g script s next s') (h : script.KeepsPace total limit s goal) :
    next.KeepsPace total limit s' goal := by
  obtain ⟨excess, labels, hpaced, hexcess, hs, hgoal⟩ := h
  obtain ⟨hwaits, hreading⟩ := hstep.still hs.waits
  have hs' := hs.of_reading hwaits hreading
  have hexcess' := hexcess.still (hstep.lasting State.later_lasting) (by rw [hreading])
  -- Only the answers about the end tell whether what was consumed is still bounded.
  cases hstep with
  | look | text => exact ⟨excess, labels, hpaced _, hexcess', hs', hgoal⟩
  | stopped next =>
    cases hstopped : (s.skip g).isStopped with
    | true => exact ⟨excess, labels, hpaced.1, hexcess', hs', hgoal⟩
    | false =>
      have hexhausted : (s.skip g).exhausted = none := by
        simp only [State.isStopped, Bool.or_eq_false_iff] at hstopped
        simpa using hstopped.1.2
      exact ⟨some 0, labels, hpaced.2, hexcess'.within hexhausted, hs', hgoal⟩
  | exhausted next =>
    cases hexhausted : s.exhausted with
    | none => exact ⟨some 0, labels, hpaced.2, hexcess.within hexhausted, hs, hgoal⟩
    | some resource => exact ⟨excess, labels, hpaced.1, hexcess, hs, hgoal⟩
  | flush | complain | remark => exact ⟨excess, labels, hpaced, hexcess', hs', hgoal⟩

/-- A token that is consumed keeps the pace for what follows. -/
theorem bump (hbump : s.bump g = .ok s') (h : (Script.bump next).KeepsPace total limit s goal) :
    next.KeepsPace total limit s' goal := by
  obtain ⟨excess, labels, hpaced, hexcess, hs, hgoal⟩ := h
  obtain ⟨hwaits, k, heats⟩ := hs.waits.bump hbump
  exact ⟨_, labels, hpaced, hexcess.eats (State.later_lasting.bump hbump) heats,
    hs.of_eats hwaits heats, hgoal⟩

/-- A body starts with a frame of its own. -/
theorem emptied {excess : Option Nat} (hpaced : body.Paced excess)
    (hexcess : State.Overruns total limit excess s)
    (hgoal : ∀ a s₁, State.Overruns total limit none s₁ →
      s₁.Surveyed (Kind.Timely total limit) s.reading.input → goal a s₁) :
    body.KeepsPace total limit { s.drain with frame := #[] } goal :=
  ⟨excess, s.reading.input, hpaced, hexcess.emptied, State.surveyed_emptied, hgoal⟩

/-- The body of a node keeps the pace from an empty frame on, and the node then stands in the frame
    outside. -/
theorem node {k : Kind} (h : (Script.node k body next).KeepsPace total limit s goal) :
    body.KeepsPace total limit { s.drain with frame := #[] } fun _ s₁ =>
      next.KeepsPace total limit
        { s₁ with frame := s.drain.frame.push (.node k s₁.frame.toList) } goal := by
  obtain ⟨excess, labels, ⟨hgrace, hbody, hnext⟩, hexcess, hs, hgoal⟩ := h
  refine emptied hbody hexcess fun _ s₁ hexcess₁ h₁ => ?_
  exact ⟨none, labels, hnext, hexcess₁.withFrame _,
    hs.pushNode h₁ (hexcess.timely hgrace h₁.spelled), hgoal⟩

/-- The body of a group keeps the pace from an empty frame on, and its frame then joins the one
    outside. -/
theorem group (h : (Script.group body next).KeepsPace total limit s goal) :
    body.KeepsPace total limit { s.drain with frame := #[] } fun _ s₁ =>
      next.KeepsPace total limit { s₁ with frame := s.drain.frame ++ s₁.frame } goal := by
  obtain ⟨excess, labels, ⟨hbody, hnext⟩, hexcess, hs, hgoal⟩ := h
  refine emptied hbody hexcess fun _ s₁ hexcess₁ h₁ => ?_
  exact ⟨none, labels, hnext, hexcess₁.withFrame _, hs.appendFrame h₁,
    hgoal⟩

/-- No node that has to be in time is put around what is there. -/
theorem wrap {k : Kind} (h : (Script.wrap k body next).KeepsPace total limit s goal) :
    body.KeepsPace total limit s fun _ s₁ =>
      next.KeepsPace total limit { s₁ with frame := #[.node k s₁.frame.toList] } goal := by
  obtain ⟨excess, labels, ⟨hgrace, hbody, hnext⟩, hexcess, hs, hgoal⟩ := h
  refine ⟨excess, labels, hbody, hexcess, hs, fun _ s₁ hexcess₁ h₁ => ?_⟩
  exact ⟨none, labels, hnext, hexcess₁.withFrame _,
    h₁.wrapped (by rw [Kind.Timely, hgrace]; exact fun _ hj => nomatch hj), hgoal⟩

/-- A level that was refused keeps the pace for what follows. -/
theorem refused {next : Bool → Script} (henter : s.enter g = (false, s₁))
    (h : (Script.deeper body next).KeepsPace total limit s goal) :
    (next false).KeepsPace total limit s₁ goal := by
  obtain ⟨excess, labels, hpaced, hexcess, hs, hgoal⟩ := h
  obtain ⟨hwaits, hreading⟩ := hs.waits.enter henter
  exact ⟨none, labels, hpaced.2 _, hexcess.later (State.later_enter henter),
    hs.of_reading hwaits hreading, hgoal⟩

/-- On a level that was granted the pace is kept, and after it was left. -/
theorem granted {next : Bool → Script} (henter : s.enter g = (true, s₁))
    (h : (Script.deeper body next).KeepsPace total limit s goal) :
    body.KeepsPace total limit s₁ fun _ s₂ => (next true).KeepsPace total limit s₂.leave goal := by
  obtain ⟨excess, labels, hpaced, hexcess, hs, hgoal⟩ := h
  obtain ⟨hwaits, hreading⟩ := hs.waits.enter henter
  have hexcess₁ := hexcess.still (State.later_enter henter) (by rw [hreading])
  refine ⟨excess, labels, hpaced.1, hexcess₁, hs.of_reading hwaits hreading, ?_⟩
  intro _ s₂ hexcess₂ h₂
  obtain ⟨hwaits', hreading'⟩ := h₂.waits.leave
  exact ⟨none, labels, hpaced.2 _, hexcess₂.later (State.later_leave g s₂),
    h₂.of_reading hwaits' hreading', hgoal⟩

/-- Between the delimiters the pace is kept, and after the closer was read or found missing. -/
theorem enclosed {d : Delimiter} {construct : String} {ifEmpty : Option Problem}
    (hopen : s.openDelimiter g d = .ok s₁)
    (h : (Script.enclosed d construct ifEmpty body next).KeepsPace total limit s goal) :
    body.KeepsPace total limit s₁ fun b s₂ => ∀ s₃ s₄, s₂.closeDelimiter g d construct = .ok s₃ →
      s₃.closeEmpty g ifEmpty b ((s.skip g).frontSpan g) = .ok s₄ →
        next.KeepsPace total limit s₄ goal := by
  obtain ⟨excess, labels, hpaced, hexcess, hs, hgoal⟩ := h
  obtain ⟨hwaits₁, k, heats⟩ := hs.waits.openDelimiter hopen
  refine ⟨none, labels, hpaced.1, hexcess.openDelimiter hopen, hs.of_eats hwaits₁ heats, ?_⟩
  intro b s₂ hexcess₂ h₂ s₃ s₄ hclose hempty
  have h₃ := h₂.closeDelimiter hclose
  obtain ⟨hwaits₄, hreading₄⟩ := h₃.waits.closeEmpty hempty
  exact ⟨none, labels, hpaced.2,
    (hexcess₂.closeDelimiter hclose).later (State.later_lasting.closeEmpty hempty),
    h₃.of_reading hwaits₄ hreading₄, hgoal⟩

/-- A rule that was called keeps the pace for what follows, since all rules do. -/
theorem call {rules : Rule → State → Reply} (hrules : Rule.Paced total limit rules)
    (hlater : ∀ rule s a s', rules rule s = .ok (a, s') → s.Later g s') {rule : Rule}
    {next : Bool → Script} {b : Bool} (hcall : rules rule s = .ok (b, s₁))
    (h : (Script.call rule next).KeepsPace total limit s goal) :
    (next b).KeepsPace total limit s₁ goal := by
  obtain ⟨excess, labels, ⟨hgrace, hnext⟩, hexcess, hs, hgoal⟩ := h
  exact ⟨none, labels, hnext b, hexcess.later (hlater _ _ _ _ hcall),
    hrules _ _ _ _ _ _ hcall hgrace hexcess hs, hgoal⟩

end Script.KeepsPace

/-- The pace of a script shows where its nodes begin. -/
def Script.paceAnalysis {rules : Rule → State → Reply} (hrules : Rule.Paced total limit rules)
    (hlater : ∀ rule s a s', rules rule s = .ok (a, s') → s.Later g s') :
    Script.Analysis g rules where
  Fine := KeepsPace total limit
  Last _ := True
  Before := State.Later g
  lasting := State.later_lasting
  before := hlater
  back _ _ := trivial
  outer _ := trivial
  done := fun ⟨_, _, _, hexcess, hs, hgoal⟩ =>
    hgoal _ _ hexcess.unbounded hs
  step hstep _ := .step hstep
  bump hbump _ := .bump hbump
  node h := h.node.mono fun _ _ hnext _ _ => hnext
  group h := h.group.mono fun _ _ hnext _ _ => hnext
  wrap h := h.wrap.mono fun _ _ hnext _ _ => hnext
  refused henter _ := .refused henter
  granted henter h := (h.granted henter).mono fun _ _ hnext _ _ => hnext
  enclosed hopen h := (h.enclosed hopen).mono fun _ _ hnext _ s₃ s₄ hclose hempty _ =>
    hnext s₃ s₄ hclose hempty
  call hcall _ := .call hrules hlater hcall

/-- A script that is paced places only nodes that begin in time. -/
theorem Script.run_paced {rules : Rule → State → Reply} (hrules : Rule.Paced total limit rules)
    (hlater : ∀ rule s a s', rules rule s = .ok (a, s') → s.Later g s') {script : Script}
    {excess : Option Nat} {s s' : State} {a : Bool} {labels : List (Kind × String)}
    (hpaced : script.Paced excess) (hrun : script.run g rules s = .ok (a, s'))
    (hexcess : State.Overruns total limit excess s)
    (h : s.Surveyed (Kind.Timely total limit) labels) :
    s'.Surveyed (Kind.Timely total limit) labels := by
  have hkeeps : script.KeepsPace total limit s fun _ s' =>
      s'.Surveyed (Kind.Timely total limit) labels :=
    ⟨excess, labels, hpaced, hexcess, h, fun _ _ _ hs => hs⟩
  exact run_sound (paceAnalysis hrules hlater) hkeeps hrun trivial

/-! ## Steps -/

namespace Fragment

variable {α β : Type} {excess : Option Nat}

/-- A script that is done opens no node. -/
@[simp] theorem paced_done {answer : Bool} : (Script.done answer).Paced excess := trivial

/-- Fragments in sequence are paced as what they make together. -/
@[simp] theorem paced_bind (m : Fragment α) (f : α → Fragment β) (next : β → Script) :
    ((m >>= f) next).Paced excess ↔ (m fun a => f a next).Paced excess := Iff.rfl

/-- Handing on a value takes no step. -/
@[simp] theorem paced_pure (a : α) (next : α → Script) :
    ((pure a : Fragment α) next).Paced excess ↔ (next a).Paced excess := Iff.rfl

/-- A choice is paced as the branch that is taken. -/
@[simp] theorem paced_ite (c : Prop) [Decidable c] (m n : Fragment α) (next : α → Script) :
    ((if c then m else n) next).Paced excess ↔
      if c then (m next).Paced excess else (n next).Paced excess := by
  split <;> rfl

/-- Looking ahead consumes nothing. -/
@[simp] theorem paced_ahead (n : Nat) (next : Kind → Script) :
    (ahead n next).Paced excess ↔ ∀ k, (next k).Paced excess := Iff.rfl

/-- Looking at the current token consumes nothing. -/
@[simp] theorem paced_current (next : Kind → Script) :
    (current next).Paced excess ↔ ∀ k, (next k).Paced excess := Iff.rfl

/-- The text of the current token is there without a step. -/
@[simp] theorem paced_currentText (next : String → Script) :
    (currentText next).Paced excess ↔ ∀ text, (next text).Paced excess := Iff.rfl

/-- Where the parse has not stopped, no token was consumed beyond the limit. -/
@[simp] theorem paced_stopped (next : Bool → Script) :
    (stopped next).Paced excess ↔ (next true).Paced excess ∧ (next false).Paced (some 0) := Iff.rfl

/-- Where steps are left, no token was consumed beyond the limit. -/
@[simp] theorem paced_exhausted (next : Bool → Script) :
    (exhausted next).Paced excess ↔ (next true).Paced excess ∧ (next false).Paced (some 0) :=
  Iff.rfl

/-- One more token may be beyond the limit. -/
@[simp] theorem paced_bump (next : Unit → Script) :
    (bump next).Paced excess ↔ (next ()).Paced (excess.map (· + 1)) := Iff.rfl

/-- What is flushed are no steps. -/
@[simp] theorem paced_flush (next : Unit → Script) :
    (flush next).Paced excess ↔ (next ()).Paced excess := Iff.rfl

/-- A complaint takes no step. -/
@[simp] theorem paced_complain (problem : Problem) (detail expected : Option String)
    (next : Unit → Script) :
    (complain problem detail expected next).Paced excess ↔ (next ()).Paced excess := Iff.rfl

/-- A complaint takes no step. -/
@[simp] theorem paced_missing (problem : Problem) (what : String) (next : Unit → Script) :
    (missing problem what next).Paced excess ↔ (next ()).Paced excess := Iff.rfl

/-- A warning takes no step. -/
@[simp] theorem paced_remark (problem : Problem) (next : Unit → Script) :
    (remark problem next).Paced excess ↔ (next ()).Paced excess := Iff.rfl

/-- A node begins no further beyond the limit than its kind allows, and how much its body consumed
    is not kept. -/
@[simp] theorem paced_node (k : Kind) (body : Fragment Unit) (next : Unit → Script) :
    (node k body next).Paced excess ↔
      Tighter excess k.grace ∧ body.unit.Paced excess ∧ (next ()).Paced none := Iff.rfl

/-- A group opens no node, but how much its body consumed is not kept. -/
@[simp] theorem paced_group (body : Fragment Unit) (next : Unit → Script) :
    (group body next).Paced excess ↔ body.unit.Paced excess ∧ (next ()).Paced none := Iff.rfl

/-- Only a kind that may stand anywhere is put around what came before. -/
@[simp] theorem paced_wrap (k : Kind) (body : Fragment Unit) (next : Unit → Script) :
    (wrap k body next).Paced excess ↔
      k.grace = none ∧ body.unit.Paced excess ∧ (next ()).Paced none := Iff.rfl

/-- How much was consumed on a level is not kept, granted or not. -/
@[simp] theorem paced_deeper (body : Fragment Unit) (next : Bool → Script) :
    (deeper body next).Paced excess ↔
      body.unit.Paced excess ∧ ∀ granted, (next granted).Paced none := Iff.rfl

/-- After the opener nothing is known of the excess. -/
@[simp] theorem paced_enclosed (d : Delimiter) (construct : String) (body : Fragment Unit)
    (next : Unit → Script) :
    (enclosed d construct body next).Paced excess ↔
      body.unit.Paced none ∧ (next ()).Paced none := Iff.rfl

/-- As `paced_enclosed`. -/
@[simp] theorem paced_enclosedNonempty (d : Delimiter) (construct : String) (ifEmpty : Problem)
    (body : Fragment Bool) (next : Unit → Script) :
    (enclosedNonempty d construct ifEmpty body next).Paced excess ↔
      body.script.Paced none ∧ (next ()).Paced none := Iff.rfl

/-- A rule is called no further beyond the limit than it allows. -/
@[simp] theorem paced_ask (rule : Rule) (next : Bool → Script) :
    (ask rule next).Paced excess ↔
      Tighter excess rule.grace ∧ ∀ a, (next a).Paced none := Iff.rfl

/-- A rule is called no further beyond the limit than it allows. -/
@[simp] theorem paced_call (rule : Rule) (next : Unit → Script) :
    (call rule next).Paced excess ↔ Tighter excess rule.grace ∧ (next ()).Paced none := by
  simp [call, Script.Paced]

/-! ## Combinations -/

/-- Testing for a kind consumes nothing. -/
@[simp] theorem paced_isAt (k : Kind) (next : Bool → Script) :
    (isAt k next).Paced excess ↔ ∀ j, (next (j == k)).Paced excess := Iff.rfl

/-- Testing for a set consumes nothing. -/
@[simp] theorem paced_isAtAny (set : TokenSet) (next : Bool → Script) :
    (isAtAny set next).Paced excess ↔ ∀ j, (next (set.contains j)).Paced excess := Iff.rfl

/-- One more token may be beyond the limit, if the kind is there. -/
@[simp] theorem paced_eat (k : Kind) (next : Bool → Script) :
    (eat k next).Paced excess ↔
      ∀ j, if j = k then (next true).Paced (excess.map (· + 1)) else (next false).Paced excess := by
  simp [eat]

/-- One more token may be beyond the limit, if the kind is there. -/
@[simp] theorem paced_optionally (k : Kind) (next : Unit → Script) :
    (optionally k next).Paced excess ↔
      ∀ j, if j = k then (next ()).Paced (excess.map (· + 1)) else (next ()).Paced excess := by
  simp [optionally]

/-- One more token may be beyond the limit, if the kind is there. -/
@[simp] theorem paced_expect (k : Kind) (what : String) (next : Bool → Script) :
    (expect k what next).Paced excess ↔
      ∀ j, if j = k then (next true).Paced (excess.map (· + 1)) else (next false).Paced excess := by
  simp [expect]

/-- One more token may be beyond the limit, if the kind is there. -/
@[simp] theorem paced_require (k : Kind) (what : String) (next : Unit → Script) :
    (require k what next).Paced excess ↔
      ∀ j, if j = k then (next ()).Paced (excess.map (· + 1)) else (next ()).Paced excess := by
  simp [require]

/-- One more token may be beyond the limit, if a name is there. -/
@[simp] theorem paced_identifier (what : String) (next : Unit → Script) :
    (identifier what next).Paced excess ↔
      ∀ j : Kind, if j = .identifier then (next ()).Paced (excess.map (· + 1))
        else (next ()).Paced excess := by
  simp [identifier]

/-- The assertion about where a rule begins takes no step. -/
@[simp] theorem paced_entered (k : Kind) (next : Unit → Script) :
    (entered k next).Paced excess ↔ (next ()).Paced excess := by
  constructor
  · intro h
    simpa using h k
  · intro h found
    show (if found = k then next () else .fail _ : Script).Paced excess
    split
    · exact h
    · trivial

/-- An error node is opened only where no token was consumed beyond the limit. -/
@[simp] theorem paced_setAside (problem : Problem) (what : String) (stops : TokenSet)
    (body : Fragment Unit) (next : Unit → Script) :
    (setAside problem what stops body next).Paced excess ↔
      Tighter excess (some 0) ∧ body.unit.Paced none ∧ (next ()).Paced none := by
  simp [setAside, unit]

end Fragment

/-! ## Parts of rules -/

namespace Grammar

open Fragment

variable {excess : Option Nat}

/-- What begins with a name is paced. -/
private theorem paced_namePrimary {next : Unit → Script} (h : (next ()).Paced none) :
    (namePrimary next).Paced excess := by
  simp [namePrimary, delimited, unit, h]

/-- A primary expression is paced. -/
private theorem paced_primary : primary.unit.Paced excess := by
  simp only [primary, unit, paced_bind, paced_current]
  intro k
  split
  case h_1 => exact paced_namePrimary trivial
  case h_5 =>
    simp only [atFnLiteral, paced_bind, paced_ahead]
    intro k
    split <;> simp [unit]
  case h_2 => simp [unit]
  case h_3 => simp [delimited, unit]
  case h_4 => simp [delimited, unit]
  case h_6 =>
    rw [paced_ite]
    split <;> simp [unit]

/-- The look at which accessor comes consumes nothing. -/
private theorem paced_accessorHere {next : Option Accessor → Script}
    (h : ∀ a, (next a).Paced excess) : (accessorHere next).Paced excess := by
  simp only [accessorHere, paced_bind, paced_current]
  intro k
  split <;> simp [h]

/-- The name behind a dot is paced. -/
private theorem paced_memberName (after : String) : (memberName after).unit.Paced excess := by
  simp [memberName, unit]

/-- An accessor is paced. -/
private theorem paced_accessor (a : Accessor) {next : Unit → Script} (h : (next ()).Paced none) :
    (accessor a next).Paced excess := by
  have hfree : a.kind.grace = none := by cases a <;> rfl
  unfold accessor
  rw [paced_node, hfree]
  refine ⟨tighter_none excess, ?_, h⟩
  cases a with
  | field => exact paced_memberName "`.`"
  | static => exact paced_memberName "`::`"
  | index => simp [unit]
  | arguments => simp [delimited, unit]
  | nonNull => simp [unit]

/-- What a member declares, after its modifiers. -/
private theorem paced_declaration (k : Kind) (h : Tighter excess (some 2)) :
    ((match k with
      | .kwFunction => do
        call .fnDecl
        optionally .semiColon
      | .identifier => do
        attrDecl
        optionally .semiColon
      | _ => do
        missing .expectedIdentifier "an attribute or function declaration"
        optionally .semiColon : Fragment Unit) fun _ => .done true).Paced excess := by
  split <;> simp [attrDecl, ascription, unit, h]

/-- The recovery from a missing variable is paced. -/
private theorem paced_missingVariable {next : Unit → Script}
    (h : ∀ excess, (next ()).Paced excess) : (missingVariable next).Paced excess := by
  simp [missingVariable, unit, h]

/-- A declaration of a variable is paced. -/
private theorem paced_varStmt : (varStmt fun _ => .done true).Paced (some 0) := by
  have htail (excess : Option Nat) : ((do
      if ← eat .colon then call .typeList
      if ← isAt .eq then call .initializer
      optionally .semiColon : Fragment Unit) fun _ => .done true).Paced excess := by
    simp
  rw [varStmt, paced_node, unit, paced_bind, paced_bump, paced_bind, paced_eat]
  refine ⟨by simp, fun j => ?_, trivial⟩
  split
  · exact htail _
  · exact paced_missingVariable fun excess => htail excess

end Grammar

/-! ## The rules

One lemma for each rule. -/

private theorem Rule.paced_item : Rule.item.script.Paced Rule.item.grace := by
  simp only [script, Grammar.item, Fragment.unit, grace, Fragment.paced_bind,
    Fragment.paced_current]
  intro k
  split <;> simp [Fragment.unit]

private theorem Rule.paced_members : Rule.members.script.Paced Rule.members.grace := by
  simp only [script, Grammar.members, Fragment.unit, grace, Fragment.paced_bind,
    Fragment.paced_stopped, Fragment.paced_ite, Fragment.paced_current]
  refine ⟨trivial, fun k => ?_⟩
  split <;> simp [Fragment.unit]

private theorem Rule.paced_member : Rule.member.script.Paced Rule.member.grace := by
  simp only [script, Grammar.typeMember, Fragment.unit, grace, Fragment.paced_node, Kind.grace,
    Fragment.paced_bind, Fragment.paced_current, tighter_some]
  refine ⟨Nat.le_refl 0, fun k => ?_, trivial⟩
  split
  all_goals
    simp only [Fragment.paced_bind, Fragment.paced_bump, Fragment.paced_optionally,
      Fragment.paced_current, Option.map_some]
  · intro j
    split
    · exact fun k => Grammar.paced_declaration k (by simp)
    · exact fun k => Grammar.paced_declaration k (by simp)
  · intro j
    split
    · exact fun k => Grammar.paced_declaration k (by simp)
    · exact fun k => Grammar.paced_declaration k (by simp)
  · exact fun k => Grammar.paced_declaration k (by simp)

private theorem Rule.paced_statements (seen : Bool) :
    (Rule.statements seen).script.Paced (Rule.statements seen).grace := by
  simp only [script, Grammar.statements, Fragment.script, grace, Fragment.paced_bind,
    Fragment.paced_stopped, Fragment.paced_ite, Fragment.paced_current]
  refine ⟨trivial, fun k => ?_⟩
  split <;> simp [Grammar.recoverStatement, Fragment.unit]

private theorem Rule.paced_statement : Rule.statement.script.Paced Rule.statement.grace := by
  simp only [script, Grammar.statement, Fragment.unit, grace, Fragment.paced_bind,
    Fragment.paced_deeper, Fragment.paced_current]
  refine ⟨fun k => ?_, fun _ => trivial⟩
  split
  case h_1 => simp [Grammar.atRecordBody, Grammar.exprStmt, Fragment.unit]
  case h_5 => exact Grammar.paced_varStmt
  case h_7 =>
    rw [Fragment.paced_ite]
    split <;> simp [Grammar.exprStmt, Grammar.recoverStatement, Fragment.unit]
  all_goals
    simp [Grammar.whileStmt, Grammar.forStmt, Grammar.returnStmt, Grammar.condition,
      Grammar.exprStmt, Fragment.unit]

private theorem Rule.paced_accessors (wrapped : Bool) :
    (Rule.accessors wrapped).script.Paced (Rule.accessors wrapped).grace := by
  refine Grammar.paced_accessorHere fun a => ?_
  cases a with
  | none => trivial
  | some a =>
    have hmore (excess : Option Nat) : (Grammar.accessor a fun _ =>
        Fragment.call (.accessors true) fun _ => .done true).Paced excess :=
      Grammar.paced_accessor a (by simp)
    cases wrapped with
    | true => exact hmore _
    | false =>
      simp only [Bool.false_eq_true, ↓reduceIte, Fragment.paced_wrap]
      exact ⟨rfl, hmore _, trivial⟩

private theorem Rule.paced_elements (form : ListForm) :
    (Rule.elements form).script.Paced (Rule.elements form).grace := by
  cases form <;>
    simp [script, Grammar.elements, ListForm.element, Fragment.unit]

private theorem Rule.paced_block : Rule.block.script.Paced Rule.block.grace := by
  simp [script, Grammar.block, Fragment.unit, Fragment.script]

private theorem Rule.paced_program : Rule.program.script.Paced Rule.program.grace := by
  simp [script, Grammar.program, Fragment.unit]

private theorem Rule.paced_imports : Rule.imports.script.Paced Rule.imports.grace := by
  simp [script, Grammar.imports, Fragment.unit]

private theorem Rule.paced_items : Rule.items.script.Paced Rule.items.grace := by
  simp [script, Grammar.items, Fragment.unit]

private theorem Rule.paced_importDecl : Rule.importDecl.script.Paced Rule.importDecl.grace := by
  simp [script, Grammar.importDecl, Fragment.unit]

private theorem Rule.paced_fnDecl : Rule.fnDecl.script.Paced Rule.fnDecl.grace := by
  simp [script, Grammar.fnDecl, Fragment.unit]

private theorem Rule.paced_fnTail : Rule.fnTail.script.Paced Rule.fnTail.grace := by
  simp [script, Grammar.fnTail, Grammar.delimited, Fragment.unit]

private theorem Rule.paced_param : Rule.param.script.Paced Rule.param.grace := by
  simp [script, Grammar.param, Grammar.ascription, Fragment.unit]

private theorem Rule.paced_typeDecl : Rule.typeDecl.script.Paced Rule.typeDecl.grace := by
  simp [script, Grammar.typeDecl, Fragment.unit]

private theorem Rule.paced_body : Rule.body.script.Paced Rule.body.grace := by
  simp [script, Grammar.body, Fragment.unit]

private theorem Rule.paced_ifStmt (terminated : Bool) :
    (Rule.ifStmt terminated).script.Paced (Rule.ifStmt terminated).grace := by
  simp [script, Grammar.ifStmt, Grammar.condition, Fragment.unit]

private theorem Rule.paced_initializer : Rule.initializer.script.Paced Rule.initializer.grace := by
  simp [script, Grammar.initializer, Fragment.unit]

private theorem Rule.paced_expr : Rule.expr.script.Paced Rule.expr.grace := by
  simp [script, Grammar.expr, Fragment.unit]

private theorem Rule.paced_chain : Rule.chain.script.Paced Rule.chain.grace := by
  simp [script, Grammar.chain, Grammar.unary, Fragment.unit]

private theorem Rule.paced_prefixes (count : Nat) :
    (Rule.prefixes count).script.Paced (Rule.prefixes count).grace := by
  simp [script, Grammar.prefixes, Grammar.prefixOperand, Fragment.unit]

private theorem Rule.paced_operand : Rule.operand.script.Paced Rule.operand.grace := by
  simp [script, Grammar.operand, Grammar.member, Fragment.unit]

private theorem Rule.paced_recordProp : Rule.recordProp.script.Paced Rule.recordProp.grace := by
  simp [script, Grammar.recordProp, Fragment.unit]

private theorem Rule.paced_typeList : Rule.typeList.script.Paced Rule.typeList.grace := by
  simp [script, Grammar.typeList, Fragment.unit]

private theorem Rule.paced_unionTail : Rule.unionTail.script.Paced Rule.unionTail.grace := by
  simp [script, Grammar.unionTail, Fragment.unit]

private theorem Rule.paced_typeName : Rule.typeName.script.Paced Rule.typeName.grace := by
  simp [script, Grammar.typeName, Grammar.typeArgs, Fragment.unit]

private theorem Rule.paced_typeArgTail : Rule.typeArgTail.script.Paced Rule.typeArgTail.grace := by
  simp [script, Grammar.typeArgTail, Fragment.unit]

private theorem Rule.paced_discard (stops : TokenSet) :
    (Rule.discard stops).script.Paced (Rule.discard stops).grace := by
  simp [script, Grammar.discard, Fragment.unit]

private theorem Rule.paced_skipTo (stops : TokenSet) :
    (Rule.skipTo stops).script.Paced (Rule.skipTo stops).grace := by
  simp [script, Grammar.skipTo, Fragment.unit]

/-- No rule begins a node too late. -/
theorem Rule.paced (rule : Rule) : rule.script.Paced rule.grace := by
  -- One lemma for each rule.
  cases rule with
  | item => exact paced_item
  | members => exact paced_members
  | member => exact paced_member
  | statements seen => exact paced_statements seen
  | statement => exact paced_statement
  | accessors wrapped => exact paced_accessors wrapped
  | primary => exact Grammar.paced_primary
  | elements form => exact paced_elements form
  | block => exact paced_block
  | program => exact paced_program
  | imports => exact paced_imports
  | items => exact paced_items
  | importDecl => exact paced_importDecl
  | fnDecl => exact paced_fnDecl
  | fnTail => exact paced_fnTail
  | param => exact paced_param
  | typeDecl => exact paced_typeDecl
  | body => exact paced_body
  | ifStmt terminated => exact paced_ifStmt terminated
  | initializer => exact paced_initializer
  | expr => exact paced_expr
  | chain => exact paced_chain
  | prefixes count => exact paced_prefixes count
  | operand => exact paced_operand
  | recordProp => exact paced_recordProp
  | typeList => exact paced_typeList
  | unionTail => exact paced_unionTail
  | typeName => exact paced_typeName
  | typeArgTail => exact paced_typeArgTail
  | discard stops => exact paced_discard stops
  | skipTo stops => exact paced_skipTo stops

/-- What a rule places begins in time. -/
theorem Rule.run_paced (budget : Nat) : Rule.Paced total limit (Rule.run g budget) := by
  intro rule s a s' labels excess hrun hgrace hexcess h
  induction budget generalizing rule s a s' labels excess with
  | zero => cases hrun
  | succ budget ih =>
    have hrules : Rule.Paced total limit (Rule.run g budget) := fun _ _ _ _ _ _ => ih _ _ _ _ _ _
    have hpaced : State.Overruns total limit rule.grace s := by
      refine ⟨hexcess.paid, fun j hj => ?_⟩
      obtain ⟨i, hi, hle⟩ := hgrace j hj
      have hbounded := hexcess.bounded i hi
      omega
    exact Script.run_paced hrules (fun _ _ _ _ => Rule.run_later) rule.paced hrun hpaced h

/-! ## Trees -/

/-- The state in which a parse ends, also where a limit was exceeded. -/
def lastState (o : Options) (source : String) : Except Fault State := do
  let tokens := Token.lex source
  let setting : Setting := ⟨Text.byteLength source.toList, o.recovery, o.depthLimit⟩
  let (_, s) ← Rule.program.run setting (callBudget tokens) (.initial tokens o.stepLimit)
  return s

/-- A parse is what its last state amounts to. -/
theorem parse_eq_lastState (o : Options) (source : String) :
    parse o source = lastState o source >>= State.finish source := by
  simp [parse, parseLexed, lastState]

/-- The tree as far as it was built. -/
def State.built (s : State) : Tree := .node .program s.frame.toList

/-- The last state of a parse is the one that the rule of programs ends in. -/
theorem lastState_eq_ok_iff {o : Options} {source : String} {s : State} :
    lastState o source = .ok s ↔ ∃ a, Rule.program.run
      ⟨Text.byteLength source.toList, o.recovery, o.depthLimit⟩ (callBudget (Token.lex source))
        (.initial (Token.lex source) o.stepLimit) = .ok (a, s) := by
  simp [lastState, bind_eq_ok_iff, pure, Except.pure]

/-- The significant leaves of what was built are those of the reading. -/
theorem State.leaves_built (s : State) :
    s.built.significant.leaves = Tree.leavesOf s.reading.frame := by
  rw [built, Tree.significant, Tree.erase, Tree.leaves_node]
  rfl

/-- In the last state all nodes of the frame are timely. -/
theorem lastState_surveyed {o : Options} {source : String} {s : State} {limit : Nat}
    (h : lastState o source = .ok s) (hlimit : o.stepLimit = some limit) :
    s.Surveyed (Kind.Timely (sourceLabels source).length limit) (sourceLabels source) := by
  obtain ⟨a, hrun⟩ := lastState_eq_ok_iff.mp h
  have hinitial : (State.initial (Token.lex source) o.stepLimit).Surveyed
      (Kind.Timely (sourceLabels source).length limit) (sourceLabels source) :=
    ⟨by simp [State.Waits, State.initial], by simp [State.reading, State.initial, sourceLabels],
      by simp [State.reading, State.initial]⟩
  have hexcess : State.Overruns (sourceLabels source).length limit none
      (State.initial (Token.lex source) o.stepLimit) := by
    refine ⟨fun _ => ⟨limit, hlimit, ?_⟩, by simp⟩
    simp [State.distance, State.initial, sourceLabels, Nat.add_comm]
  exact Rule.run_paced _ _ _ _ _ _ _ hrun (by simp) hexcess hinitial

/-- Imports, items, statements, members and elements begin within the limit on consumed tokens, and
    declarations in a type at most two tokens later, in the tree of a parse that came to its end and
    in the tree of one that ran out of steps. -/
theorem lastState_paced {o : Options} {source : String} {s : State} {limit : Nat}
    (h : lastState o source = .ok s) (hlimit : o.stepLimit = some limit) :
    ∀ site ∈ s.built.significant.sites [] [], ∀ grace ∈ site.kind.grace,
      site.before.length ≤ limit + grace := by
  obtain ⟨-, hspelled, hsites⟩ := lastState_surveyed h hlimit
  have htotal := congrArg List.length hspelled
  have hroot : Tree.AllSites (Kind.Timely (sourceLabels source).length limit)
      ([] ++ s.reading.input) [s.built.significant] := by
    rw [State.built, Tree.significant, Tree.erase, Tree.allSites_node]
    refine ⟨fun j _ => ?_, hsites⟩
    exact Nat.le_trans (htotal.ge) (Nat.le_add_left _ _)
  intro site hsite grace hgrace
  have hmem : site ∈ Tree.sitesOf [] [] [s.built.significant] := by simpa [Tree.sitesOf] using hsite
  have htimely := Tree.AllSites.of_mem (Tree.AllSites.of_append hroot) site hmem grace hgrace
  -- What stands before a node is what its own tokens and those after it leave of all.
  have hspells := congrArg List.length (Tree.spells_of_mem_sites [] [] _ site hsite)
  rw [State.leaves_built] at hspells
  simp only [List.nil_append, List.append_nil, List.length_append] at hspells htimely htotal
  omega

/-- A variable is read to its end, and the statement after it does not begin. -/
theorem lastState_paced_variable : ∃ s, lastState ⟨true, some 1, none⟩ "var a=b!;c" = .ok s ∧
    s.built.significant.leaves.length = 6 ∧
    (s.built.significant.sites [] []).map (fun site : Site => site.kind) =
      [.program, .varStmt, .initializer, .memberExpr, .nameRef, .nonNullAssert] ∧
    ∀ site ∈ s.built.significant.sites [] [], ∀ grace ∈ site.kind.grace,
      site.before.length ≤ 1 + grace := by
  have hlast : lastState ⟨true, some 1, none⟩ "var a=b!;c" = .ok
      { rest := [⟨.identifier, "c", 9, ⟨1, 10⟩⟩]
        index := 7
        pending := []
        frame := #[.node .varStmt
          [.leaf .kwVar "var", .leaf .whitespace " ", .leaf .identifier "a",
            .node .initializer
              [.leaf .eq "=",
                .node .memberExpr
                  [.node .nameRef [.leaf .identifier "b"],
                    .node .nonNullAssert [.leaf .exclMark "!"]]],
            .leaf .semiColon ";"]]
        diagnostics := #[]
        depth := 0
        reported := none
        delimiters := []
        patience := 255
        steps := some 0
        halted := false
        exhausted := some .steps
        consumedTo := some 9 } := by cbv
  exact ⟨_, hlast, rfl, rfl, lastState_paced hlast rfl⟩

end ScriptTree
