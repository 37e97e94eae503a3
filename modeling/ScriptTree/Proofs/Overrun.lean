import ScriptTree.Proofs.Gates
import ScriptTree.Proofs.Pace
import ScriptTree.Proofs.Towers

/-!
# A loop without end

The loop over accessors does not ask whether the parse came to its end.  So an operand with its
accessors is read to the last one, whatever the limit on consumed tokens, and no constant bounds how
many tokens a parse consumes beyond that limit.

`Script.Drains` walks through a script with the significant tokens ahead.  It follows a parse that
has run out of steps: what is asked about the end of the parse may be answered either way, except
where nothing was consumed yet.

## Key results

- `Rule.drains`: an operand is read with all of its accessors
- `not_consumed_le`: the limit does not bound what is consumed
-/

namespace ScriptTree

/-! ## An operand with its accessors -/

/-- Nothing but `!`. -/
def Bangs (input : List (Kind × String)) : Prop := ∀ p ∈ input, p.1 = .exclMark

/-- A name and then nothing but `!`. -/
def Opens (input : List (Kind × String)) : Prop :=
  ∃ name bangs, input = (.identifier, name) :: bangs ∧ Bangs bangs

/-- A part of nothing but `!` is nothing but `!`. -/
theorem Bangs.of_suffix {input rest : List (Kind × String)} (h : Bangs input)
    (hsuffix : rest <:+ input) : Bangs rest := fun p hp => h p (hsuffix.subset hp)

/-- Where a rule is called on the way to the accessors: `ease` levels can be entered, and if that is
    not zero, then nothing ran out. -/
def Rule.Reached (ease : Nat) (input : List (Kind × String)) : Rule → Prop
  | imports => 0 < ease ∧ kindAt input 0 ≠ .kwImport
  | program | items | item | statement => 2 ≤ ease ∧ Opens input
  | expr => 1 ≤ ease ∧ Opens input
  | chain | operand | primary => Opens input
  | accessors _ => Bangs input
  | _ => False

/-- What a rule leaves that was called on the way. -/
def Rule.Left (ease : Nat) (input : List (Kind × String)) (ease' : Nat)
    (rest : List (Kind × String)) : Rule → Prop
  | imports => ease' = ease ∧ rest = input
  | primary => Bangs rest
  | _ => rest = []

/-- However the parse is cut short, `post` holds of what is left of the tokens ahead. -/
def Script.Drains : Script → (ease : Nat) → List (Kind × String) →
    (Nat → List (Kind × String) → Prop) → Prop
  | .done _, ease, input, post => post ease input
  | .fail _, _, _, _ => True
  | .look n next, ease, input, post => (next (kindAt input n)).Drains ease input post
  | .text next, ease, input, post => (next (frontText input)).Drains ease input post
  | .stopped next, ease, input, post =>
    ∀ b, (0 < ease → b = input.isEmpty) → (next b).Drains ease input post
  | .exhausted next, ease, input, post => ∀ b, (next b).Drains ease input post
  | .bump next, _, input, post => ∀ p rest, input = p :: rest → next.Drains 0 rest post
  | .flush next, ease, input, post => next.Drains ease input post
  | .complain _ next, _, input, post => next.Drains 0 input post
  | .remark _ next, _, input, post => next.Drains 0 input post
  | .node _ body next, ease, input, post =>
    body.Drains ease input fun ease rest => next.Drains ease rest post
  | .group body next, ease, input, post =>
    body.Drains ease input fun ease rest => next.Drains ease rest post
  | .wrap _ body next, ease, input, post =>
    body.Drains ease input fun ease rest => next.Drains ease rest post
  | .deeper body next, ease, input, post =>
    0 < ease ∧ body.Drains (ease - 1) input fun _ rest => (next true).Drains 0 rest post
  -- Delimiters do not occur here.
  | .enclosed _ _ _ _ _, _, _, _ => False
  | .call rule next, ease, input, post => ∀ a ease' rest, rest <:+ input →
      (rule.Reached ease input → rule.Left ease input ease' rest) → (next a).Drains ease' rest post

/-! ## Runs -/

namespace State

variable {g : Setting} {s s' : State} {ease : Nat}

/-- So many levels can be entered, and unless there are none, nothing ran out. -/
def Eased (g : Setting) (ease : Nat) (s : State) : Prop :=
  0 < ease → s.Live ∧ ∀ l ∈ g.depthLimit, s.depth + ease ≤ l

/-- Without ease nothing is asked of the state. -/
private theorem eased_zero (g : Setting) (s : State) : s.Eased g 0 :=
  fun h => absurd h (Nat.lt_irrefl 0)

/-- The ease of a state depends on what ran out and on its level. -/
theorem Eased.congr (h : s.Eased g ease) (hexhausted : s'.exhausted = s.exhausted)
    (hhalted : s'.halted = s.halted) (hdepth : s'.depth = s.depth) : s'.Eased g ease := by
  intro hpos
  obtain ⟨hlive, hroom⟩ := h hpos
  refine ⟨⟨by rw [hexhausted, hlive.1], by rw [hhalted, hlive.2]⟩, ?_⟩
  rw [hdepth]
  exact hroom

/-- Skipping keeps the ease, unless the parse is strict. -/
theorem Eased.skip (h : s.Eased g ease) (hrecovery : g.recovery = true) :
    (s.skip g).Eased g ease :=
  h.congr skip_exhausted ((later_skip g s).running hrecovery) skip_depth

/-- What is consumed is taken from the front. -/
private theorem input_of_bump (h : s.bump g = .ok s') :
    ∃ p, s.reading.input = p :: s'.reading.input := by
  obtain ⟨t, ts, hrest, rfl⟩ := bump_eq_ok_iff.mp h
  exact ⟨t.label, reading_input_of_rest hrest⟩

end State

variable {g : Setting}

/-- What the rules do in a parse with recovery. -/
def Rule.Drain (g : Setting) (rules : Rule → State → Reply) : Prop :=
  ∀ rule s a s' ease, rules rule s = .ok (a, s') → s.Eased g ease →
    ∃ ease', s'.Eased g ease' ∧ (rule.Reached ease s.reading.input →
      rule.Left ease s.reading.input ease' s'.reading.input)

/-- From the state the script drains the input, and that it does so shows what is claimed of the
    outcome. -/
def Script.KeepsDraining (g : Setting) (script : Script) (s : State) (goal : Bool → State → Prop) :
    Prop :=
  ∃ ease post, script.Drains ease s.reading.input post ∧ s.Eased g ease ∧
    ∀ a ease' s', s'.Eased g ease' → post ease' s'.reading.input → goal a s'

namespace Script.KeepsDraining

variable {script next body : Script} {s s' s₁ : State} {goal goal' : Bool → State → Prop}
  {ease : Nat} {post : Nat → List (Kind × String) → Prop}

/-- The draining may be kept for a weaker goal. -/
theorem mono (h : script.KeepsDraining g s goal) (hgoal : ∀ a s', goal a s' → goal' a s') :
    script.KeepsDraining g s goal' := by
  obtain ⟨ease, post, hdrains, hs, hshown⟩ := h
  exact ⟨ease, post, hdrains, hs, fun a ease' s' hs' hpost =>
    hgoal a s' (hshown a ease' s' hs' hpost)⟩

/-- Nothing is consumed where the reading stays the same. -/
theorem still (hreading : s'.reading = s.reading) (hs' : s'.Eased g ease)
    (hdrains : next.Drains ease s.reading.input post)
    (hgoal : ∀ a ease' s', s'.Eased g ease' → post ease' s'.reading.input → goal a s') :
    next.KeepsDraining g s' goal :=
  ⟨ease, post, by rwa [hreading], hs', hgoal⟩

/-- A step that consumes nothing keeps the draining for what follows. -/
theorem step (hrecovery : g.recovery = true) (hstep : Step g script s next s')
    (h : script.KeepsDraining g s goal) : next.KeepsDraining g s' goal := by
  obtain ⟨ease, post, hdrains, hs, hgoal⟩ := h
  -- Looking and skipping leave the reading; the ease is needed only where the fuel is asked for.
  cases hstep with
  | look hlook =>
    obtain ⟨-, rfl, rfl⟩ := State.look_eq_ok_iff.mp hlook
    refine still ((State.reading_congr rfl rfl).trans State.reading_skip)
      ((hs.skip hrecovery).congr rfl rfl rfl) ?_ hgoal
    rw [← State.kindAt_reading]
    exact hdrains
  | text =>
    refine still State.reading_skip (hs.skip hrecovery) ?_ hgoal
    rw [← State.frontText_reading]
    exact hdrains
  | stopped =>
    refine still State.reading_skip (hs.skip hrecovery) (hdrains _ fun hpos => ?_) hgoal
    have hlive := (hs.skip (g := g) hrecovery hpos).1
    exact State.isStopped_reading (by rw [← hlive.1, State.skip_exhausted]) hlive.2
  | exhausted => exact ⟨ease, post, hdrains _, hs, hgoal⟩
  | flush =>
    have hinput : (s.skip g).drain.reading.input = s.reading.input := by
      show (s.skip g).reading.input = s.reading.input
      rw [State.reading_skip]
    exact ⟨ease, post, by rwa [hinput], (hs.skip hrecovery).congr rfl rfl rfl, hgoal⟩
  -- A complaint takes no level and no fuel.
  | complain hcomplain =>
    obtain ⟨p, d, rfl, -⟩ := State.complain_eq_ok hcomplain
    have hreading : State.reading { s.skip g with patience := p } = s.reading :=
      (State.reading_congr rfl rfl).trans State.reading_skip
    exact still ((State.reading_reportAt _ _).trans hreading) (State.eased_zero g _) hdrains hgoal
  | remark problem =>
    exact still ((State.reading_reportAt _ _).trans State.reading_skip) (State.eased_zero g _)
      hdrains hgoal

/-- A token that is consumed keeps the draining for what follows. -/
theorem bump (hbump : s.bump g = .ok s') (h : (Script.bump next).KeepsDraining g s goal) :
    next.KeepsDraining g s' goal := by
  obtain ⟨ease, post, hdrains, hs, hgoal⟩ := h
  obtain ⟨p, hinput⟩ := State.input_of_bump hbump
  exact ⟨0, post, hdrains _ _ hinput, State.eased_zero g s', hgoal⟩

/-- A frame of its own has no part in what is ahead of a body. -/
theorem emptied (hdrains : body.Drains ease s.reading.input post) (hs : s.Eased g ease)
    (hgoal : ∀ a ease' s', s'.Eased g ease' → post ease' s'.reading.input → goal a s') :
    body.KeepsDraining g { s.drain with frame := #[] } goal := by
  refine ⟨ease, post, ?_, hs.congr rfl rfl rfl, hgoal⟩
  rw [State.reading_emptied]
  exact hdrains

/-- The body of a node keeps the draining from an empty frame on, and the node then stands in the
    frame outside. -/
theorem node {k : Kind} (h : (Script.node k body next).KeepsDraining g s goal) :
    body.KeepsDraining g { s.drain with frame := #[] } fun _ s₁ =>
      next.KeepsDraining g
        { s₁ with frame := s.drain.frame.push (.node k s₁.frame.toList) } goal := by
  obtain ⟨ease, post, hdrains, hs, hgoal⟩ := h
  refine emptied hdrains hs fun _ ease₁ s₁ h₁ hnext => ?_
  exact ⟨ease₁, post, hnext, h₁.congr rfl rfl rfl, hgoal⟩

/-- The body of a group keeps the draining from an empty frame on, and its frame then joins the one
    outside. -/
theorem group (h : (Script.group body next).KeepsDraining g s goal) :
    body.KeepsDraining g { s.drain with frame := #[] } fun _ s₁ =>
      next.KeepsDraining g { s₁ with frame := s.drain.frame ++ s₁.frame } goal := by
  obtain ⟨ease, post, hdrains, hs, hgoal⟩ := h
  refine emptied hdrains hs fun _ ease₁ s₁ h₁ hnext => ?_
  exact ⟨ease₁, post, hnext, h₁.congr rfl rfl rfl, hgoal⟩

/-- The body of what wraps keeps the draining in the same frame, which then is one node. -/
theorem wrap {k : Kind} (h : (Script.wrap k body next).KeepsDraining g s goal) :
    body.KeepsDraining g s fun _ s₁ =>
      next.KeepsDraining g { s₁ with frame := #[.node k s₁.frame.toList] } goal := by
  obtain ⟨ease, post, hdrains, hs, hgoal⟩ := h
  refine ⟨ease, _, hdrains, hs, fun _ ease₁ s₁ h₁ hnext => ?_⟩
  exact ⟨ease₁, post, hnext, h₁.congr rfl rfl rfl, hgoal⟩

/-- There is room for one level, so it is not refused. -/
private theorem enters {next : Bool → Script}
    (h : (Script.deeper body next).KeepsDraining g s goal) :
    s.enter g = (true, { s with depth := s.depth + 1, patience := fullPatience }) := by
  obtain ⟨ease, post, ⟨hpos, -⟩, hs, -⟩ := h
  obtain ⟨-, hroom⟩ := hs hpos
  rw [State.enter, if_neg]
  rw [Bool.not_eq_true, Option.any_eq_false]
  intro l hl
  have hle := hroom l hl
  rw [decide_eq_false_iff_not]
  omega

/-- A level that was refused keeps the draining for what follows. -/
theorem refused {next : Bool → Script} (henter : s.enter g = (false, s₁))
    (h : (Script.deeper body next).KeepsDraining g s goal) :
    (next false).KeepsDraining g s₁ goal := by
  rw [h.enters] at henter
  cases henter

/-- On a level that was granted the draining is kept, and after it was left. -/
theorem granted {next : Bool → Script} (henter : s.enter g = (true, s₁))
    (h : (Script.deeper body next).KeepsDraining g s goal) :
    body.KeepsDraining g s₁ fun _ s₂ => (next true).KeepsDraining g s₂.leave goal := by
  rw [h.enters] at henter
  cases henter
  obtain ⟨ease, post, ⟨hpos, hdrains⟩, hs, hgoal⟩ := h
  obtain ⟨hlive, hroom⟩ := hs hpos
  have hdeeper : State.Eased g (ease - 1)
      { s with depth := s.depth + 1, patience := fullPatience } := by
    refine fun _ => ⟨hlive, fun l hl => ?_⟩
    have hle := hroom l hl
    show s.depth + 1 + (ease - 1) ≤ l
    omega
  refine ⟨ease - 1, _, hdrains, hdeeper, fun _ ease₂ s₂ _ hnext => ?_⟩
  exact ⟨0, post, hnext, State.eased_zero g _, hgoal⟩

/-- A rule that was called keeps the draining for what follows, since all rules do. -/
theorem call {rules : Rule → State → Reply} (hrules : Rule.Drain g rules)
    (hlater : ∀ rule s a s', rules rule s = .ok (a, s') → s.Later g s') {rule : Rule}
    {next : Bool → Script} {b : Bool} (hcall : rules rule s = .ok (b, s₁))
    (h : (Script.call rule next).KeepsDraining g s goal) : (next b).KeepsDraining g s₁ goal := by
  obtain ⟨ease, post, hdrains, hs, hgoal⟩ := h
  obtain ⟨ease₁, h₁, hleaves⟩ := hrules _ _ _ _ _ hcall hs
  exact ⟨ease₁, post, hdrains _ _ _ (hlater _ _ _ _ hcall).input_suffix hleaves, h₁, hgoal⟩

end Script.KeepsDraining

/-- How a script drains the input shows what it leaves of it. -/
def Script.drainAnalysis (hrecovery : g.recovery = true) {rules : Rule → State → Reply}
    (hrules : Rule.Drain g rules)
    (hlater : ∀ rule s a s', rules rule s = .ok (a, s') → s.Later g s') :
    Script.Analysis g rules where
  Fine := KeepsDraining g
  Last _ := True
  Before := State.Later g
  lasting := State.later_lasting
  before := hlater
  back _ _ := trivial
  outer _ := trivial
  done := fun ⟨_, _, hdrains, hs, hgoal⟩ => hgoal _ _ _ hs hdrains
  step hstep _ := .step hrecovery hstep
  bump hbump _ := .bump hbump
  node h := h.node.mono fun _ _ hnext _ _ => hnext
  group h := h.group.mono fun _ _ hnext _ _ => hnext
  wrap h := h.wrap.mono fun _ _ hnext _ _ => hnext
  refused henter _ := .refused henter
  granted henter h := (h.granted henter).mono fun _ _ hnext _ _ => hnext
  -- Delimiters do not occur.
  enclosed := fun _ ⟨_, _, hdrains, _⟩ => hdrains.elim
  call hcall _ := .call hrules hlater hcall

/-- A script that drains the input leaves what it says. -/
theorem Script.run_drains (hrecovery : g.recovery = true) {rules : Rule → State → Reply}
    (hrules : Rule.Drain g rules)
    (hlater : ∀ rule s a s', rules rule s = .ok (a, s') → s.Later g s') {script : Script}
    {ease : Nat} {post : Nat → List (Kind × String) → Prop} {s s' : State} {a : Bool}
    (hdrains : script.Drains ease s.reading.input post) (hrun : script.run g rules s = .ok (a, s'))
    (h : s.Eased g ease) : ∃ ease', s'.Eased g ease' ∧ post ease' s'.reading.input := by
  have hkeeps : script.KeepsDraining g s fun _ s' =>
      ∃ ease', s'.Eased g ease' ∧ post ease' s'.reading.input :=
    ⟨ease, post, hdrains, h, fun _ ease' _ hs' hpost => ⟨ease', hs', hpost⟩⟩
  exact run_sound (drainAnalysis hrecovery hrules hlater) hkeeps hrun trivial

/-! ## Steps -/

namespace Fragment

variable {α β : Type} {ease : Nat} {input : List (Kind × String)}
  {post : Nat → List (Kind × String) → Prop}

/-- A script that is done leaves what is ahead. -/
@[simp] theorem drains_done {answer : Bool} :
    (Script.done answer).Drains ease input post ↔ post ease input := Iff.rfl

/-- Fragments in sequence are followed in sequence. -/
@[simp] theorem drains_bind (m : Fragment α) (f : α → Fragment β) (next : β → Script) :
    ((m >>= f) next).Drains ease input post ↔
      (m fun a => f a next).Drains ease input post := Iff.rfl

@[simp] theorem drains_pure (a : α) (next : α → Script) :
    ((pure a : Fragment α) next).Drains ease input post ↔
      (next a).Drains ease input post := Iff.rfl

/-- The branch that is taken is followed. -/
@[simp] theorem drains_ite (c : Prop) [Decidable c] (m n : Fragment α) (next : α → Script) :
    ((if c then m else n) next).Drains ease input post ↔
      if c then (m next).Drains ease input post else (n next).Drains ease input post := by
  split <;> rfl

/-- What stands ahead is known from the input. -/
@[simp] theorem drains_ahead (n : Nat) (next : Kind → Script) :
    (ahead n next).Drains ease input post ↔
      (next (kindAt input n)).Drains ease input post := Iff.rfl

@[simp] theorem drains_current (next : Kind → Script) :
    (current next).Drains ease input post ↔
      (next (kindAt input 0)).Drains ease input post := Iff.rfl

/-- Whether the parse is at its end may be answered either way, once something was consumed. -/
@[simp] theorem drains_stopped (next : Bool → Script) :
    (stopped next).Drains ease input post ↔
      ∀ b, (0 < ease → b = input.isEmpty) → (next b).Drains ease input post := Iff.rfl

/-- The first label of the input is consumed, and no level may be entered any more. -/
@[simp] theorem drains_bump (next : Unit → Script) :
    (bump next).Drains ease input post ↔
      ∀ p rest, input = p :: rest → (next ()).Drains 0 rest post := Iff.rfl

/-- Flushing consumes nothing. -/
@[simp] theorem drains_flush (next : Unit → Script) :
    (flush next).Drains ease input post ↔ (next ()).Drains ease input post := Iff.rfl

/-- A warning may put the parse to its end. -/
@[simp] theorem drains_remark (problem : Problem) (next : Unit → Script) :
    (remark problem next).Drains ease input post ↔ (next ()).Drains 0 input post := Iff.rfl

/-- A node is followed as its body. -/
@[simp] theorem drains_node (k : Kind) (body : Fragment Unit) (next : Unit → Script) :
    (node k body next).Drains ease input post ↔
      body.unit.Drains ease input fun ease rest => (next ()).Drains ease rest post := Iff.rfl

/-- A group is followed as its body. -/
@[simp] theorem drains_group (body : Fragment Unit) (next : Unit → Script) :
    (group body next).Drains ease input post ↔
      body.unit.Drains ease input fun ease rest => (next ()).Drains ease rest post := Iff.rfl

/-- What wraps is followed as its body. -/
@[simp] theorem drains_wrap (k : Kind) (body : Fragment Unit) (next : Unit → Script) :
    (wrap k body next).Drains ease input post ↔
      body.unit.Drains ease input fun ease rest => (next ()).Drains ease rest post := Iff.rfl

/-- A level is entered as long as there is ease for it. -/
@[simp] theorem drains_deeper (body : Fragment Unit) (next : Bool → Script) :
    (deeper body next).Drains ease input post ↔ 0 < ease ∧
      body.unit.Drains (ease - 1) input fun _ rest => (next true).Drains 0 rest post := Iff.rfl

/-- A rule leaves what it promises if it is reached. -/
@[simp] theorem drains_call (rule : Rule) (next : Unit → Script) :
    (call rule next).Drains ease input post ↔ ∀ ease' rest, rest <:+ input →
      (rule.Reached ease input → rule.Left ease input ease' rest) →
        (next ()).Drains ease' rest post := by
  simp [call, Script.Drains]

/-- Whether the kind is there is known from the input. -/
@[simp] theorem drains_isAt (k : Kind) (next : Bool → Script) :
    (isAt k next).Drains ease input post ↔
      (next (kindAt input 0 == k)).Drains ease input post := Iff.rfl

/-- Whether a kind of the set is there is known from the input. -/
@[simp] theorem drains_isAtAny (set : TokenSet) (next : Bool → Script) :
    (isAtAny set next).Drains ease input post ↔
      (next (set.contains (kindAt input 0))).Drains ease input post := Iff.rfl

/-- The token is consumed exactly if it is there. -/
@[simp] theorem drains_optionally (k : Kind) (next : Unit → Script) :
    (optionally k next).Drains ease input post ↔
      if kindAt input 0 = k then ∀ p rest, input = p :: rest → (next ()).Drains 0 rest post
      else (next ()).Drains ease input post := by
  simp [optionally, eat]

end Fragment

/-! ## The rules -/

section

variable {ease : Nat} {input : List (Kind × String)}

/-- Next comes `!`, or the end. -/
theorem Bangs.kindAt (h : Bangs input) : kindAt input 0 = .exclMark ∨ input = [] := by
  cases input with
  | nil => exact .inr rfl
  | cons p input => exact .inl (h p List.mem_cons_self)

/-- The loop over accessors reads all that it finds, for it does not ask for the end. -/
private theorem Rule.drains_accessors (wrapped : Bool) (h : Bangs input) :
    (Rule.accessors wrapped).script.Drains ease input fun _ rest => rest = [] := by
  cases input with
  | nil => simp [script, Grammar.accessors, Grammar.accessorHere, Fragment.unit]
  | cons p bangs =>
    obtain ⟨k, text⟩ := p
    obtain rfl : k = .exclMark := h _ List.mem_cons_self
    have hbangs : Bangs bangs := h.of_suffix (List.suffix_cons _ _)
    cases wrapped <;>
      simp [script, Grammar.accessors, Grammar.accessorHere, Grammar.accessor, Fragment.unit,
        Reached, Left, hbangs]

/-- A name that does not open anything is a primary expression by itself. -/
private theorem Rule.drains_primary (h : Opens input) :
    Rule.primary.script.Drains ease input fun _ rest => Bangs rest := by
  obtain ⟨name, bangs, rfl, hbangs⟩ := h
  have hbracket : kindAt bangs 0 ≠ .lBracket := by
    obtain hbang | rfl := hbangs.kindAt <;> simp_all
  have hcurly : kindAt bangs 0 ≠ .lCurly := by
    obtain hbang | rfl := hbangs.kindAt <;> simp_all
  simp [script, Grammar.primary, Grammar.namePrimary, Fragment.unit, hbracket, hcurly, hbangs]

/-- A name is read with all the `!` behind it. -/
private theorem Rule.drains_operand (h : Opens input) :
    Rule.operand.script.Drains ease input fun _ rest => rest = [] := by
  obtain ⟨name, bangs, rfl, hbangs⟩ := h
  have hopens : Opens ((.identifier, name) :: bangs) := ⟨name, bangs, rfl, hbangs⟩
  simp [script, Grammar.operand, Grammar.member, Fragment.unit, Reached, Left, hopens]
  intro rest _ hrest rest' _ hempty
  simp +decide [hempty hrest]

/-- A rule on the way to the accessors, which leaves of the input what it says. -/
def Rule.IsDrained (rule : Rule) : Prop :=
  ∀ {ease : Nat} {input : List (Kind × String)}, rule.Reached ease input →
    rule.script.Drains ease input fun ease' rest => rule.Left ease input ease' rest

private theorem Rule.drains_program : Rule.IsDrained .program := by
  intro ease input h
  obtain ⟨hease, hopens⟩ := h
  have hfirst : kindAt input 0 ≠ .kwImport := by
    obtain ⟨name, bangs, rfl, -⟩ := hopens
    simp
  have hpos : 0 < ease := by omega
  simp only [script, Grammar.program, Fragment.unit, Fragment.drains_bind, Fragment.drains_call,
    Fragment.drains_flush, Fragment.drains_done, Left, Reached]
  intro ease₁ rest₁ _ himports ease₂ rest₂ _ hitems
  obtain ⟨rfl, rfl⟩ := himports ⟨hpos, hfirst⟩
  exact hitems ⟨hease, hopens⟩

private theorem Rule.drains_imports : Rule.IsDrained .imports := by
  intro ease input h
  simp [script, Grammar.imports, Fragment.unit, Left, h.2]

private theorem Rule.drains_items : Rule.IsDrained .items := by
  intro ease input h
  obtain ⟨hease, name, bangs, rfl, hbangs⟩ := h
  have hpos : 0 < ease := by omega
  have hopens : Opens ((.identifier, name) :: bangs) := ⟨name, bangs, rfl, hbangs⟩
  simp [script, Grammar.items, Fragment.unit, Left, Reached, hease, hpos, hopens]
  intro ease' rest _ hrest
  simp [hrest]

private theorem Rule.drains_item : Rule.IsDrained .item := by
  intro ease input h
  obtain ⟨hease, name, bangs, rfl, hbangs⟩ := h
  have hopens : Opens ((.identifier, name) :: bangs) := ⟨name, bangs, rfl, hbangs⟩
  simp +decide [script, Grammar.item, Fragment.unit, Left, Reached, hease, hopens]

private theorem Rule.drains_statement : Rule.IsDrained .statement := by
  intro ease input h
  obtain ⟨hease, name, bangs, rfl, hbangs⟩ := h
  have hopens : Opens ((.identifier, name) :: bangs) := ⟨name, bangs, rfl, hbangs⟩
  have hpos : 0 < ease := by omega
  have hdeeper : 1 ≤ ease - 1 := by omega
  simp +decide [script, Grammar.statement, Grammar.exprStmt, Fragment.unit, Left, Reached, hpos,
    hdeeper, hopens]
  intro rest _ hrest
  simp [hrest]

private theorem Rule.drains_expr : Rule.IsDrained .expr := by
  intro ease input h
  obtain ⟨hease, name, bangs, rfl, hbangs⟩ := h
  have hpos : 0 < ease := by omega
  have hopens : Opens ((.identifier, name) :: bangs) := ⟨name, bangs, rfl, hbangs⟩
  simp +decide [script, Grammar.expr, Fragment.unit, Left, Reached, hpos, hopens]

private theorem Rule.drains_chain : Rule.IsDrained .chain := by
  intro ease input h
  obtain ⟨name, bangs, rfl, hbangs⟩ := h
  have hopens : Opens ((.identifier, name) :: bangs) := ⟨name, bangs, rfl, hbangs⟩
  simp +decide [script, Grammar.chain, Grammar.unary, Fragment.unit, Left, Reached, hopens]
  intro ease' rest _ hrest
  simp +decide [hrest]

/-- Each rule on the way to the accessors leaves what it promises. -/
theorem Rule.drains (rule : Rule) (h : rule.Reached ease input) :
    rule.script.Drains ease input fun ease' rest => rule.Left ease input ease' rest := by
  have hrule : rule.IsDrained := by
    cases rule with
    | program => exact drains_program
    | imports => exact drains_imports
    | items => exact drains_items
    | item => exact drains_item
    | statement => exact drains_statement
    | expr => exact drains_expr
    | chain => exact drains_chain
    | operand => exact fun h => drains_operand h
    | primary => exact fun h => drains_primary h
    | accessors wrapped => exact fun h => drains_accessors wrapped h
    | _ => exact fun h => h.elim
  exact hrule h

end

/-- All rules on the way read an operand to the last accessor, whatever has run out. -/
theorem Rule.run_drains (hrecovery : g.recovery = true) (budget : Nat) :
    Rule.Drain g (Rule.run g budget) := by
  intro rule s a s' ease hrun h
  induction budget generalizing rule s a s' ease with
  | zero => cases hrun
  | succ budget ih =>
    by_cases hreached : rule.Reached ease s.reading.input
    · obtain ⟨ease', h', hleft⟩ := Script.run_drains hrecovery (fun _ _ _ _ _ => ih _ _ _ _ _)
        (fun _ _ _ _ => Rule.run_later) (rule.drains hreached) hrun h
      exact ⟨ease', h', fun _ => hleft⟩
    · exact ⟨0, State.eased_zero g s', fun hreached' => absurd hreached' hreached⟩

/-! ## Sources -/

/-- A name with so many accessors. -/
def assertions (n : Nat) : List Char := 'a' :: List.replicate n '!'

namespace Piece

/-- A run of `!` is scanned one by one. -/
private theorem kinds_scan_bangs (n : Nat) :
    (scan (List.replicate n '!')).map (·.kind) = List.replicate n .exclMark := by
  induction n with
  | zero => simp [scan]
  | succ n ih =>
    have hbang : Pattern.munch Lexicon.entries (List.replicate (n + 1) '!') =
        some (.exclMark, 1) := by
      cases n with
      | zero => cbv
      | succ n => cbv
    rw [List.replicate_succ] at hbang ⊢
    rw [scan_of_munch hbang]
    simp [ih, List.replicate_succ]

/-- A name and a run of `!` are scanned one by one. -/
private theorem kinds_scan_assertions (n : Nat) : (scan (assertions (n + 1))).map (·.kind) =
    .identifier :: List.replicate (n + 1) .exclMark := by
  have hname : Pattern.munch Lexicon.entries ('a' :: '!' :: List.replicate n '!') =
      some (.identifier, 1) := by cbv
  rw [assertions, List.replicate_succ, scan_of_munch hname, List.map_cons, List.drop_zero,
    ← List.replicate_succ, kinds_scan_bangs]

end Piece

/-- The tokens of a name and a run of `!`. -/
private theorem kinds_lex_assertions (n : Nat) :
    (Token.lex (String.ofList (assertions (n + 1)))).map (·.kind) =
      .identifier :: List.replicate (n + 1) .exclMark := by
  have hkinds := Piece.kinds_scan_assertions n
  have hsolid : ∀ p ∈ Piece.scan (assertions (n + 1)),
      p.kind = .identifier ∨ p.kind = .exclMark := by
    intro p hp
    have hmem : p.kind ∈ (Piece.scan (assertions (n + 1))).map (·.kind) := List.mem_map_of_mem hp
    rw [hkinds] at hmem
    obtain h | h := List.mem_cons.mp hmem
    · exact .inl h
    · exact .inr (List.eq_of_mem_replicate h)
  rw [Token.lex, Piece.kinds_place, Piece.ofText, String.toList_ofList, Piece.gather_eq_self,
    Piece.splitSigns_eq_self, hkinds]
  · intro p hp
    obtain h | h := hsolid p hp <;> rw [h] <;> decide
  · intro p hp
    obtain h | h := hsolid p hp <;> rw [h] <;> decide

/-- All tokens are significant, and they are a name and its accessors. -/
private theorem opens_assertions (n : Nat) :
    Opens (sourceLabels (String.ofList (assertions (n + 1)))) ∧
    (sourceLabels (String.ofList (assertions (n + 1)))).length = n + 2 := by
  have hkinds := kinds_lex_assertions n
  rw [sourceLabels]
  generalize Token.lex (String.ofList (assertions (n + 1))) = tokens at hkinds
  -- None of the tokens is skipped.
  have hall : Token.significant tokens = tokens := by
    refine List.filter_eq_self.mpr fun t ht => ?_
    have hmem : t.kind ∈ tokens.map (·.kind) := List.mem_map_of_mem ht
    rw [hkinds] at hmem
    obtain h | h := List.mem_cons.mp hmem
    · rw [h]
      rfl
    · rw [List.eq_of_mem_replicate h]
      rfl
  rw [hall]
  -- A name, and then as many marks as there are.
  cases tokens with
  | nil => cases hkinds
  | cons t ts =>
    obtain ⟨hname, hbangs⟩ := List.cons.inj hkinds
    refine ⟨⟨t.text, ts.map Token.label, by simp [Token.label, hname], fun p hp => ?_⟩, ?_⟩
    · obtain ⟨u, hu, rfl⟩ := List.mem_map.mp hp
      have hmem : u.kind ∈ ts.map (·.kind) := List.mem_map_of_mem hu
      rw [hbangs] at hmem
      exact List.eq_of_mem_replicate hmem
    · have hlength := congrArg List.length hbangs
      simp only [List.length_map, List.length_replicate] at hlength
      simp [hlength]

/-- Without a single step, a name with any number of accessors is read to its end. -/
private theorem lastState_assertions (n : Nat) :
    ∃ s, lastState ⟨true, some 0, some Options.defaultDepthLimit⟩
        (String.ofList (assertions (n + 1))) = .ok s ∧
      s.built.significant.leaves.length = n + 2 := by
  -- The tokens of the text, and that none of them opens a function or a type.
  obtain ⟨hopens, hlength⟩ := opens_assertions n
  have hplain : ∀ t ∈ Token.lex (String.ofList (assertions (n + 1))),
      t.kind ∉ [Kind.kwFunction, Kind.kwType, Kind.kwOpen] := by
    intro t ht
    have hmem : t.kind ∈ (Token.lex (String.ofList (assertions (n + 1)))).map (·.kind) :=
      List.mem_map_of_mem ht
    rw [kinds_lex_assertions] at hmem
    obtain h | h := List.mem_cons.mp hmem
    · simp [h]
    · simp [List.eq_of_mem_replicate h]
  -- The parse comes to an end, and so there is a last state.
  obtain ⟨outcome, hparse⟩ := (parse_ensures .plain ⟨true, some 0, some Options.defaultDepthLimit⟩
    (String.ofList (assertions (n + 1))) (by simp)
    fun t ht => shows_plain (hplain t ht)).ok_or_stalled.resolve_right (by simp)
  rw [parse_eq_lastState] at hparse
  obtain ⟨s, hlast, -⟩ := bind_eq_ok_iff.mp hparse
  refine ⟨s, hlast, ?_⟩
  obtain ⟨a, hrun⟩ := lastState_eq_ok_iff.mp hlast
  -- At the start nothing has run out, and two levels are all that the operand takes.
  have hease (e : Nat) : State.Eased ⟨e, true, some Options.defaultDepthLimit⟩ 2
      (State.initial (Token.lex (String.ofList (assertions (n + 1)))) (some 0)) :=
    fun _ => ⟨⟨rfl, rfl⟩, by simp [State.initial, Options.defaultDepthLimit]⟩
  obtain ⟨ease', -, hleft⟩ := Rule.run_drains rfl _ _ _ _ _ 2 hrun (hease _)
  -- Nothing is left to be read, so the tree holds every token.
  have hinput : s.reading.input = [] := hleft ⟨Nat.le_refl 2, hopens⟩
  have hspelled := (lastState_surveyed hlast rfl).spelled
  rw [hinput, List.append_nil, ← State.leaves_built] at hspelled
  rw [hspelled, hlength]

/-- So no constant bounds how many tokens a parse consumes beyond the limit on them. -/
theorem not_consumed_le : ¬ ∃ K, ∀ source n s,
    lastState ⟨true, some n, some Options.defaultDepthLimit⟩ source = .ok s →
      s.built.significant.leaves.length ≤ n + K := by
  intro h
  obtain ⟨K, hK⟩ := h
  obtain ⟨s, hlast, hlength⟩ := lastState_assertions K
  have hle := hK _ 0 s hlast
  omega

end ScriptTree
