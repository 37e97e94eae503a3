import ScriptTree.Proofs.Discipline
import ScriptTree.Proofs.Losslessness
import ScriptTree.Proofs.View

/-!
# What can be read is read

If the tokens ahead can be read without mistakes and without warnings, then the run of a rule does
so: it fails nowhere, reports nothing, and ends with the reading that was promised.

A run could still fail for want of patience or of budget for its calls.  It does not, since the
script of a rule is in order (`Rule.steady`): there is patience for each lookahead, and a chain of
calls goes down in rank until a token is consumed.

## Key results

- `Rule.run_of_parses`: a rule that can read without mistakes does so
- `parseLexed_of_parses`: a source that can be read has a tree and no reports
-/

namespace ScriptTree

/-- There is only one way to eat a token. -/
theorem Reading.Eats.unique {j k : Kind} {x y z : Reading} (h : x.Eats j y) (h' : x.Eats k z) :
    y = z := by
  obtain ⟨text, hinput, hframe⟩ := h
  obtain ⟨text', hinput', hframe'⟩ := h'
  rw [hinput] at hinput'
  obtain ⟨input, frame⟩ := y
  obtain ⟨input', frame'⟩ := z
  cases hinput'
  rw [Reading.mk.injEq]
  exact ⟨rfl, hframe.trans hframe'.symm⟩

/-- A token that is eaten is no longer ahead. -/
theorem Reading.Eats.length_eq {k : Kind} {x y : Reading} (h : x.Eats k y) :
    x.input.length = y.input.length + 1 := by
  obtain ⟨text, hinput, -⟩ := h
  rw [hinput, List.length_cons]

namespace State

variable {g : Setting} {s s' s'' : State}

/-! ## Calm states -/

/-- Nothing was reported or ran out, and skipping will not change that. -/
structure Calm (s : State) : Prop where
  waits : s.Waits
  lexed : ∀ t ∈ s.rest, t.kind.isLexError = false
  silent : s.diagnostics = #[]
  running : s.halted = false
  supplied : s.exhausted = none
  unlimited : s.steps = none
  patience : s.patience ≤ fullPatience

/-- A calm state with a given reading, at least some patience, and the delimiters of before. -/
structure Reaches (s : State) (x : Reading) (p : Nat) (s' : State) : Prop where
  calm : s'.Calm
  reading : s'.reading = x
  delimiters : s'.delimiters = s.delimiters
  patience : p ≤ s'.patience

/-- A state changes in nothing but its frame and what does not matter. -/
theorem Calm.congr (h : s.Calm) (hwaits : s'.Waits) (hrest : ∀ t ∈ s'.rest, t ∈ s.rest)
    (hdiagnostics : s'.diagnostics = s.diagnostics) (hhalted : s'.halted = s.halted)
    (hexhausted : s'.exhausted = s.exhausted) (hsteps : s'.steps = s.steps)
    (hpatience : s'.patience ≤ fullPatience) : s'.Calm where
  waits := hwaits
  lexed t ht := h.lexed t (hrest t ht)
  silent := by rw [hdiagnostics, h.silent]
  running := by rw [hhalted, h.running]
  supplied := by rw [hexhausted, h.supplied]
  unlimited := by rw [hsteps, h.unlimited]
  patience := hpatience

/-- The frame has no part in it. -/
theorem Calm.withFrame (h : s.Calm) (f : Array Tree) : ({ s with frame := f } : State).Calm :=
  h.congr h.waits (fun _ ht => ht) rfl rfl rfl rfl h.patience

/-- Placing skipped tokens keeps a state calm. -/
theorem Calm.drain (h : s.Calm) : s.drain.Calm :=
  h.congr (waits_drain (s := s)) (fun _ ht => ht) rfl rfl rfl rfl h.patience

/-! ## Operations -/

/-- Skipping keeps a state calm, for there are no lexical errors ahead. -/
theorem Calm.skip (h : s.Calm) : (s.skip g).Calm := by
  have hno : ∀ t ∈ s.rest.takeWhile (·.kind.isSkipped), t.kind.isLexError = false :=
    fun t ht => h.lexed t ((List.takeWhile_sublist _).subset ht)
  have hnone : Token.lexDiagnostics (s.rest.takeWhile (·.kind.isSkipped)) = [] := by
    simpa [Token.lexDiagnostics] using hno
  refine h.congr h.waits.skip ?_ ?_ ?_ skip_exhausted skip_steps (by simpa using h.patience)
  · rw [skip_rest]
    exact fun t ht => (List.dropWhile_sublist _).subset ht
  · rw [skip_eq]
    simp [passReports, hnone]
  · rw [skip_eq]
    simpa [h.running] using fun _ => hno

/-- Skipping does not change the reading. -/
private theorem Calm.reaches_skip (h : s.Calm) {p : Nat} (hp : p ≤ s.patience) :
    s.Reaches s.reading p (s.skip g) :=
  ⟨h.skip, reading_skip, skip_delimiters, by rwa [skip_patience]⟩

/-- With patience left, a lookahead tells what the reading has ahead. -/
theorem Calm.look (h : s.Calm) {p : Nat} (hpositive : 0 < p) (hp : p ≤ s.patience) (n : Nat) :
    ∃ s', s.look g n = .ok (kindAt s.reading.input n, s') ∧ s.Reaches s.reading (p - 1) s' := by
  have hle := h.patience
  have hcalm : ({ s.skip g with patience := s.patience - 1 } : State).Calm :=
    h.skip.congr h.skip.waits (fun _ ht => ht) rfl rfl rfl rfl
      (by show s.patience - 1 ≤ fullPatience; omega)
  refine ⟨_, look_eq_ok_iff.mpr ⟨by omega, kindAt_reading s n, rfl⟩, hcalm, ?_, skip_delimiters, ?_⟩
  · exact (reading_congr rfl rfl).trans (reading_skip (g := g))
  · show p - 1 ≤ s.patience - 1
    omega

/-- Consuming a token keeps a state calm. -/
theorem Calm.consume (h : s.Calm) {t : Token} {ts : List Token} (hrest : s.rest = t :: ts) :
    (s.consume t ts).Calm := by
  have hspend : s.spend = s := by simp [spend, h.unlimited]
  refine h.congr (waits_consume t ts) ?_ (consume_diagnostics t ts) (consume_halted t ts) ?_ ?_
    (Nat.le_refl _)
  · intro u hu
    rw [hrest]
    exact List.mem_cons_of_mem t hu
  · rw [State.consume, hspend]
    rfl
  · rw [State.consume, hspend]
    rfl

/-- What the reading eats can be consumed. -/
theorem Calm.bump (h : s.Calm) {k : Kind} {x : Reading} (heats : s.reading.Eats k x) :
    ∃ s', s.bump g = .ok s' ∧ s.Reaches x fullPatience s' := by
  cases hrest : (s.skip g).rest with
  | nil =>
    have hempty : s.reading.input.isEmpty = true := by
      rw [reading_input_isEmpty (g := g), hrest]
      rfl
    obtain ⟨text, hinput, -⟩ := heats
    rw [hinput] at hempty
    cases hempty
  | cons t ts =>
    have hconsumed := reading_consume h.waits hrest
    refine ⟨_, bump_eq_ok_iff.mpr ⟨t, ts, hrest, rfl⟩, h.skip.consume hrest, hconsumed.unique heats,
      ?_, Nat.le_refl _⟩
    rw [consume_delimiters, skip_delimiters]

/-- An opener is consumed like any token, and noted. -/
theorem Calm.openDelimiter (h : s.Calm) {k : Kind} {x : Reading} (heats : s.reading.Eats k x)
    (d : Delimiter) :
    ∃ s', s.openDelimiter g d = .ok s' ∧ s'.Calm ∧ s'.reading = x ∧ s'.patience = fullPatience ∧
      s'.delimiters = (d, (s.skip g).frontSpan g) :: s.delimiters := by
  have hpushed : ({ s.skip g with
      delimiters := (d, (s.skip g).frontSpan g) :: (s.skip g).delimiters } : State).Calm :=
    h.skip.congr h.skip.waits (fun _ ht => ht) rfl rfl rfl rfl h.skip.patience
  have hsame : State.reading { s.skip g with
      delimiters := (d, (s.skip g).frontSpan g) :: (s.skip g).delimiters } = s.reading :=
    (reading_congr rfl rfl).trans (reading_skip (g := g))
  rw [← hsame] at heats
  obtain ⟨s', hbump, hreaches⟩ := hpushed.bump (g := g) heats
  refine ⟨s', hbump, hreaches.calm, hreaches.reading, ?_, ?_⟩
  · exact Nat.le_antisymm hreaches.calm.patience hreaches.patience
  · rw [hreaches.delimiters, skip_delimiters]

/-- A closer that is there closes the innermost delimiter. -/
theorem Calm.closeDelimiter (h : s.Calm) {d : Delimiter} {x : Reading}
    (heats : s.reading.Eats d.closer x) (hpatience : 0 < s.patience) {opener : Span}
    {outer : List (Delimiter × Span)} (hopen : s.delimiters = (d, opener) :: outer)
    (construct : String) :
    ∃ s', s.closeDelimiter g d construct = .ok s' ∧ s'.Calm ∧ s'.reading = x ∧
      s'.patience = fullPatience ∧ s'.delimiters = outer := by
  have htail : ({ s with delimiters := s.delimiters.tail } : State).Calm :=
    h.congr h.waits (fun _ ht => ht) rfl rfl rfl rfl h.patience
  have hsame : ({ s with delimiters := s.delimiters.tail } : State).reading = s.reading :=
    reading_congr rfl rfl
  obtain ⟨s₁, hlook, hreaches₁⟩ := htail.look (g := g) hpatience (Nat.le_refl _) 0
  rw [hsame, heats.kindAt_eq] at hlook
  have heats₁ : s₁.reading.Eats d.closer x := by
    rw [hreaches₁.reading, hsame]
    exact heats
  obtain ⟨s₂, hbump, hreaches₂⟩ := hreaches₁.calm.bump (g := g) heats₁
  -- The closer is the kind that was looked for, so eating it comes down to consuming it.
  have heat : ({ s with delimiters := s.delimiters.tail } : State).eat g d.closer =
      .ok (true, s₂) :=
    eat_eq_ok_iff.mpr ⟨_, s₁, hlook, .inl ⟨rfl, rfl, hbump⟩⟩
  refine ⟨s₂, ?_, hreaches₂.calm, hreaches₂.reading, ?_, ?_⟩
  -- The delimiter on top is the one to be closed.
  · have hpaired : s.delimiters.head?.any (·.1 ≠ d) = false := by simp [hopen]
    exact closeDelimiter_eq_ok_iff.mpr ⟨hpaired, true, s₂, heat, .inl ⟨rfl, rfl⟩⟩
  · exact Nat.le_antisymm hreaches₂.calm.patience hreaches₂.patience
  · rw [hreaches₂.delimiters, hreaches₁.delimiters]
    simp [hopen]

/-- Without a limit a level is granted. -/
theorem Calm.enter (h : s.Calm) (hlimit : g.depthLimit = none) :
    ∃ s', s.enter g = (true, s') ∧ s.Reaches s.reading fullPatience s' := by
  have henter : s.enter g =
      (true, { s with depth := s.depth + 1, patience := fullPatience }) := by
    simp [State.enter, hlimit]
  refine ⟨_, henter, ?_, reading_congr rfl rfl, rfl, Nat.le_refl _⟩
  exact h.congr h.waits (fun _ ht => ht) rfl rfl rfl rfl (Nat.le_refl _)

/-- To leave a level restores the patience, and changes nothing of the reading. -/
theorem Calm.leave (h : s.Calm) : s.Reaches s.reading fullPatience s.leave := by
  refine ⟨?_, reading_congr rfl rfl, rfl, Nat.le_refl _⟩
  exact h.congr h.waits (fun _ ht => ht) rfl rfl rfl rfl (Nat.le_refl _)

/-! ## States on the way through a script -/

variable {limit : Nat} {e e' : Bool} {p p' q : Nat} {x y : Reading}

/-- A calm state on the way through a script: there is some patience, and no more than `limit`
    tokens are ahead, or fewer if a token was eaten already. -/
structure Ready (limit : Nat) (e : Bool) (p : Nat) (s : State) : Prop where
  calm : s.Calm
  patience : p ≤ s.patience
  within : s.reading.input.length ≤ limit
  eaten : e = true → s.reading.input.length < limit

/-- A script led from a state to a ready one, with the reading that was promised. -/
structure Arrives (limit : Nat) (e : Bool) (p : Nat) (s : State) (x : Reading) (s' : State) :
    Prop where
  ready : s'.Ready limit e p
  reading : s'.reading = x
  delimiters : s'.delimiters = s.delimiters
  shorter : x.input.length ≤ s.reading.input.length

/-- What is ahead and what is left decide whether a calm state is ready. -/
theorem Ready.congr (h : s.Ready limit e p) (hcalm : s'.Calm) (hq : q ≤ s'.patience)
    (hinput : s'.reading.input = s.reading.input) : s'.Ready limit e q :=
  ⟨hcalm, hq, by rw [hinput]; exact h.within, by rw [hinput]; exact h.eaten⟩

/-- The frame has no part in it. -/
theorem Ready.withFrame (h : s.Ready limit e p) (f : Array Tree) :
    ({ s with frame := f } : State).Ready limit e p :=
  h.congr (h.calm.withFrame f) h.patience rfl

/-- Placing skipped tokens keeps a state ready. -/
theorem Ready.drain (h : s.Ready limit e p) : s.drain.Ready limit e p :=
  h.congr h.calm.drain h.patience rfl

/-- Ready for the body of a node or of a group. -/
theorem Ready.emptied (h : s.Ready limit e p) :
    ({ s.drain with frame := #[] } : State).Ready limit e p :=
  h.drain.withFrame #[]

/-- A state that is reached with the same reading is as ready as before. -/
private theorem Ready.reached (h : s.Ready limit e p) (hreaches : s.Reaches s.reading q s') :
    s'.Ready limit e q :=
  h.congr hreaches.calm hreaches.patience (by rw [hreaches.reading])

/-- Once a token is eaten, there are fewer ahead. -/
theorem Ready.eat (h : s.Ready limit e p) {k : Kind} (heats : s.reading.Eats k x)
    (hcalm : s'.Calm) (hreading : s'.reading = x) (hq : q ≤ s'.patience) :
    s'.Ready limit true q := by
  have hshorter := heats.length_eq
  have hwithin := h.within
  subst hreading
  exact ⟨hcalm, hq, by omega, fun _ => by omega⟩

/-- The state where a script ends without a step. -/
private theorem Ready.arrives (h : s.Ready limit e p) : s.Arrives limit e p s.reading s :=
  ⟨h, rfl, rfl, Nat.le_refl _⟩

/-- A script that goes on from a later state arrives where it does from there. -/
theorem Arrives.after (h : s'.Arrives limit e p x s'') (hdelimiters : s'.delimiters = s.delimiters)
    (hle : s'.reading.input.length ≤ s.reading.input.length) : s.Arrives limit e p x s'' :=
  ⟨h.ready, h.reading, h.delimiters.trans hdelimiters, Nat.le_trans h.shorter hle⟩

/-- Nothing was read in the first step. -/
private theorem Arrives.after_reached (h : s'.Arrives limit e p x s'')
    (hreaches : s.Reaches s.reading q s') : s.Arrives limit e p x s'' :=
  h.after hreaches.delimiters (by rw [hreaches.reading])

end State

variable {g : Setting}

/-! ## Scripts -/

/-- Rules do what they can, if they are called with fewer tokens ahead than `limit`, or with that
    many and at a lower rank than `rank`. -/
def Rule.Executes (rules : Rule → State → Reply) (calls : Calls) (limit rank : Nat) : Prop :=
  ∀ (rule : Rule) (s : State) (a : Bool) (x : Reading) (p : Nat), s.Calm →
    calls rule s.reading a x → rule.spends ≤ p → p ≤ s.patience →
    s.reading.input.length < limit ∨ s.reading.input.length = limit ∧ rule.rank < rank →
    ∃ s', rules rule s = .ok (a, s') ∧ s.Reaches x (rule.left p) s' ∧
      x.input.length ≤ s.reading.input.length ∧
      (rule.consumes = true → x.input.length < s.reading.input.length)

/-! ### Step by step

Each step does what can be read and leaves a ready state; so does the script that begins with it, if
the rest does. -/

namespace Script

variable {rules : Rule → State → Reply} {calls : Calls} {limit rank : Nat} {body next : Script}

/-- From every ready state the script does what can be read without mistakes. -/
def Performs (g : Setting) (rules : Rule → State → Reply) (calls : Calls)
    (limit rank : Nat) (script : Script) : Prop :=
  ∀ {e : Bool} {p : Nat} {post : Bool → Nat → Prop} {s : State} {a : Bool} {x : Reading},
    script.Steady rank e p post → s.Ready limit e p → script.Reads false calls s.reading a x →
    ∃ s' e' p', script.run g rules s = .ok (a, s') ∧ post e' p' ∧ s.Arrives limit e' p' x s'

/-- A lookahead sees what the reading sees, and takes one from the patience. -/
private theorem performs_look (n : Nat) {next : Kind → Script}
    (hnext : ∀ k, (next k).Performs g rules calls limit rank) :
    (Script.look n next).Performs g rules calls limit rank := by
  intro e p post s a x hsteady h hreads
  obtain ⟨hpositive, hsteady⟩ := hsteady
  obtain ⟨s₁, hlook, hreaches⟩ := h.calm.look (g := g) hpositive h.patience n
  have hreads₁ : (next (kindAt s.reading.input n)).Reads false calls s₁.reading a x := by
    rwa [hreaches.reading]
  obtain ⟨s', e', p', hrun, hpost, h'⟩ :=
    hnext _ (hsteady _) (h.reached hreaches) hreads₁
  exact ⟨s', e', p', run_look_eq_ok_iff.mpr ⟨_, s₁, hlook, hrun⟩, hpost, h'.after_reached hreaches⟩

/-- The text of the current token is that of the reading. -/
private theorem performs_text {next : String → Script}
    (hnext : ∀ text, (next text).Performs g rules calls limit rank) :
    (Script.text next).Performs g rules calls limit rank := by
  intro e p post s a x hsteady h hreads
  have hreaches := h.calm.reaches_skip (g := g) h.patience
  have hreads₁ : (next (s.skip g).frontText).Reads false calls (s.skip g).reading a x := by
    rw [← State.frontText_reading, hreaches.reading]
    exact hreads
  obtain ⟨s', e', p', hrun, hpost, h'⟩ := hnext _ (hsteady _) (h.reached hreaches) hreads₁
  exact ⟨s', e', p', hrun, hpost, h'.after_reached hreaches⟩

/-- The parse stops where the reading ends. -/
private theorem performs_stopped {next : Bool → Script}
    (hnext : ∀ b, (next b).Performs g rules calls limit rank) :
    (Script.stopped next).Performs g rules calls limit rank := by
  intro e p post s a x hsteady h hreads
  have hreaches := h.calm.reaches_skip (g := g) h.patience
  -- Nothing but the end of the input stops a calm parse.
  have hstopped : (s.skip g).isStopped = s.reading.input.isEmpty := by
    rw [State.reading_input_isEmpty (g := g), State.isStopped, hreaches.calm.supplied,
      hreaches.calm.running]
    simp
  have hreads₁ : (next (s.skip g).isStopped).Reads false calls (s.skip g).reading a x := by
    rw [hstopped, hreaches.reading]
    exact hreads
  obtain ⟨s', e', p', hrun, hpost, h'⟩ := hnext _ (hsteady _) (h.reached hreaches) hreads₁
  exact ⟨s', e', p', hrun, hpost, h'.after_reached hreaches⟩

private theorem performs_exhausted {next : Bool → Script}
    (hnext : ∀ b, (next b).Performs g rules calls limit rank) :
    (Script.exhausted next).Performs g rules calls limit rank := by
  intro e p post s a x hsteady h hreads
  obtain ⟨s', e', p', hrun, hend⟩ := hnext false hsteady h hreads
  refine ⟨s', e', p', ?_, hend⟩
  show (next s.exhausted.isSome).run g rules s = .ok (a, s')
  rw [h.calm.supplied]
  exact hrun

/-- Consuming the current token eats it, and restores the patience. -/
private theorem performs_bump (hnext : next.Performs g rules calls limit rank) :
    (Script.bump next).Performs g rules calls limit rank := by
  intro e p post s a x hsteady h hreads
  obtain ⟨k, y, heats, hreads⟩ := hreads
  obtain ⟨s₁, hbump, hreaches⟩ := h.calm.bump (g := g) heats
  have h₁ := h.eat heats hreaches.calm hreaches.reading hreaches.patience
  obtain ⟨s', e', p', hrun, hpost, h'⟩ := hnext hsteady h₁ (by rwa [hreaches.reading])
  have hle : s₁.reading.input.length ≤ s.reading.input.length := by
    rw [hreaches.reading, heats.length_eq]
    omega
  exact ⟨s', e', p', run_bump_eq_ok_iff.mpr ⟨s₁, hbump, hrun⟩, hpost,
    h'.after hreaches.delimiters hle⟩

private theorem performs_flush (hnext : next.Performs g rules calls limit rank) :
    (Script.flush next).Performs g rules calls limit rank := by
  intro e p post s a x hsteady h hreads
  have hskip := h.calm.reaches_skip (g := g) h.patience
  have hdrained : (s.skip g).drain.reading = s.reading := by
    rw [State.reading_drain hskip.calm.waits, hskip.reading]
  obtain ⟨s', e', p', hrun, hpost, h'⟩ := hnext hsteady (h.reached hskip).drain (by rwa [hdrained])
  exact ⟨s', e', p', hrun, hpost, h'.after hskip.delimiters (by rw [hdrained])⟩

/-- A body is run from `s₁`, what it makes is put into the frame `f`, and the rest follows.  This
    is what the three steps that make nodes have in common. -/
private theorem performs_framed (hbody : body.Performs g rules calls limit rank)
    (hnext : next.Performs g rules calls limit rank) {e : Bool} {p : Nat}
    {post : Bool → Nat → Prop} (s : State) {s₁ : State} {a b : Bool} {x y z : Reading}
    (hsteady : body.Steady rank e p fun e p => next.Steady rank e p post)
    (h : s₁.Ready limit e p) (hdelimiters : s₁.delimiters = s.delimiters)
    (hinput : s₁.reading.input = s.reading.input) (hreads : body.Reads false calls s₁.reading b y)
    (f : State → Array Tree)
    (hframe : ∀ s₂ : State, s₂.reading = y → ({ s₂ with frame := f s₂ } : State).reading = z)
    (hreads' : next.Reads false calls z a x) :
    ∃ s₂ s' e' p', body.run g rules s₁ = .ok (b, s₂) ∧
      next.run g rules { s₂ with frame := f s₂ } = .ok (a, s') ∧ post e' p' ∧
      s.Arrives limit e' p' x s' := by
  obtain ⟨s₂, e₂, p₂, hrun, hsteady₂, h₂⟩ := hbody hsteady h hreads
  obtain ⟨s', e', p', hrun', hpost, h'⟩ := hnext hsteady₂ (h₂.ready.withFrame (f s₂))
    (by rwa [hframe s₂ h₂.reading])
  have hle : s₂.reading.input.length ≤ s.reading.input.length := by
    rw [h₂.reading, ← hinput]
    exact h₂.shorter
  exact ⟨s₂, s', e', p', hrun, hrun', hpost, h'.after (h₂.delimiters.trans hdelimiters) hle⟩

/-- A node is made of what its body adds to an empty frame. -/
private theorem performs_node (k : Kind) (hbody : body.Performs g rules calls limit rank)
    (hnext : next.Performs g rules calls limit rank) :
    (Script.node k body next).Performs g rules calls limit rank := by
  intro e p post s a x hsteady h hreads
  obtain ⟨b, y, hreads, hreads'⟩ := hreads
  rw [← State.reading_emptied] at hreads
  obtain ⟨s₂, s', e', p', hrun, hrun', hend⟩ := performs_framed hbody hnext s hsteady h.emptied
    rfl (by rw [State.reading_emptied]) hreads
    (fun s₂ => s.drain.frame.push (.node k s₂.frame.toList))
    (fun s₂ hs₂ => by rw [State.reading_pushNode h.calm.waits, hs₂]) hreads'
  exact ⟨s', e', p', run_node_eq_ok_iff.mpr ⟨b, s₂, hrun, hrun'⟩, hend⟩

/-- What the group adds is poured out behind what was there. -/
private theorem performs_group (hbody : body.Performs g rules calls limit rank)
    (hnext : next.Performs g rules calls limit rank) :
    (Script.group body next).Performs g rules calls limit rank := by
  intro e p post s a x hsteady h hreads
  obtain ⟨b, y, hreads, hreads'⟩ := hreads
  rw [← State.reading_emptied] at hreads
  obtain ⟨s₂, s', e', p', hrun, hrun', hend⟩ := performs_framed hbody hnext s hsteady h.emptied
    rfl (by rw [State.reading_emptied]) hreads (fun s₂ => s.drain.frame ++ s₂.frame)
    (fun s₂ hs₂ => by rw [State.reading_appendFrame h.calm.waits, hs₂]) hreads'
  exact ⟨s', e', p', run_group_eq_ok_iff.mpr ⟨b, s₂, hrun, hrun'⟩, hend⟩

/-- The new node takes all that is in the frame. -/
private theorem performs_wrap (k : Kind) (hbody : body.Performs g rules calls limit rank)
    (hnext : next.Performs g rules calls limit rank) :
    (Script.wrap k body next).Performs g rules calls limit rank := by
  intro e p post s a x hsteady h hreads
  obtain ⟨b, y, hreads, hreads'⟩ := hreads
  obtain ⟨s₂, s', e', p', hrun, hrun', hend⟩ := performs_framed hbody hnext s hsteady h rfl rfl
    hreads (fun s₂ => #[.node k s₂.frame.toList])
    (fun s₂ hs₂ => by rw [State.reading_wrapped, hs₂]) hreads'
  exact ⟨s', e', p', run_wrap_eq_ok_iff.mpr ⟨b, s₂, hrun, hrun'⟩, hend⟩

/-- Without a limit every level is granted. -/
private theorem performs_deeper (hlimit : g.depthLimit = none) {next : Bool → Script}
    (hbody : body.Performs g rules calls limit rank)
    (hnext : ∀ b, (next b).Performs g rules calls limit rank) :
    (Script.deeper body next).Performs g rules calls limit rank := by
  intro e p post s a x hsteady h hreads
  obtain ⟨b, y, hreads, hreads'⟩ := hreads
  obtain ⟨s₁, henter, hentered⟩ := h.calm.enter hlimit
  obtain ⟨s₂, e₂, p₂, hrun, hsteady₂, h₂⟩ := hbody hsteady (h.reached hentered)
    (by rwa [hentered.reading])
  have hleft := h₂.ready.calm.leave
  obtain ⟨s', e', p', hrun', hpost, h'⟩ := hnext true hsteady₂ (h₂.ready.reached hleft)
    (by rwa [hleft.reading, h₂.reading])
  have hle : s₂.reading.input.length ≤ s.reading.input.length := by
    rw [h₂.reading, ← hentered.reading]
    exact h₂.shorter
  refine ⟨s', e', p', ?_, hpost,
    (h'.after_reached hleft).after (h₂.delimiters.trans hentered.delimiters) hle⟩
  exact run_deeper_eq_ok_iff.mpr (.inr ⟨s₁, b, s₂, henter, hrun, hrun'⟩)

/-- The opener is eaten, the body run, and the closer is there to be eaten. -/
private theorem performs_enclosed (d : Delimiter) (construct : String) (ifEmpty : Option Problem)
    (hbody : body.Performs g rules calls limit rank)
    (hnext : next.Performs g rules calls limit rank) :
    (Script.enclosed d construct ifEmpty body next).Performs g rules calls limit rank := by
  intro e p post s a x hsteady h hreads
  obtain ⟨k, y, heats, b, z, hreads, hanswer, w, heats', hreads'⟩ := hreads
  -- The opener is read.
  obtain ⟨s₁, hopen, hcalm₁, hsame₁, hpatience₁, hdelimiters₁⟩ :=
    h.calm.openDelimiter (g := g) heats d
  have h₁ := h.eat heats hcalm₁ hsame₁ (Nat.le_of_eq hpatience₁.symm)
  -- The body is run, and is left with patience for the look at the closer.
  obtain ⟨s₂, e₂, p₂, hrun, ⟨hpositive, hsteady₂⟩, h₂⟩ := hbody hsteady.2 h₁ (by rwa [hsame₁])
  have heats₂ : s₂.reading.Eats d.closer w := by rwa [h₂.reading]
  have hpatience₂ : 0 < s₂.patience := Nat.lt_of_lt_of_le hpositive h₂.ready.patience
  -- The closer is read, and the rest is run.
  obtain ⟨s₃, hclose, hcalm₃, hsame₃, hpatience₃, hdelimiters₃⟩ :=
    h₂.ready.calm.closeDelimiter (g := g) heats₂ hpatience₂ (h₂.delimiters.trans hdelimiters₁)
      construct
  have h₃ := h₂.ready.eat heats₂ hcalm₃ hsame₃ (Nat.le_of_eq hpatience₃.symm)
  obtain ⟨s', e', p', hrun', hpost, h'⟩ := hnext hsteady₂ h₃ (by rwa [hsame₃])
  -- A body that must not be empty is not, so there is nothing to report.
  have hempty : s₃.closeEmpty g ifEmpty b ((s.skip g).frontSpan g) = .ok s₃ := by
    cases ifEmpty with
    | none => rfl
    | some problem =>
      obtain rfl := hanswer rfl
      rfl
  have hle : s₃.reading.input.length ≤ s.reading.input.length := by
    have hopened := heats.length_eq
    have hclosed := heats'.length_eq
    have hbetween := h₂.shorter
    rw [hsame₁] at hbetween
    rw [hsame₃]
    omega
  exact ⟨s', e', p', run_enclosed_eq_ok_iff.mpr ⟨s₁, b, s₂, s₃, s₃, hopen, hrun, hclose, hempty,
    hrun'⟩, hpost, h'.after hdelimiters₃ hle⟩

/-- A rule that is called has a lower rank, or a token was consumed before. -/
private theorem performs_call (hrules : Rule.Executes rules calls limit rank) (rule : Rule)
    {next : Bool → Script} (hnext : ∀ a, (next a).Performs g rules calls limit rank) :
    (Script.call rule next).Performs g rules calls limit rank := by
  intro e p post s a x hsteady h hreads
  obtain ⟨hdown, hspends, hsteady⟩ := hsteady
  obtain ⟨b, y, hcall, hreads⟩ := hreads
  -- Unless a token was eaten on the way here, the rule that is called has a lower rank.
  have hlower : s.reading.input.length < limit ∨
      s.reading.input.length = limit ∧ rule.rank < rank := by
    have hwithin := h.within
    by_cases hlt : s.reading.input.length < limit
    · exact .inl hlt
    · obtain he | hrank := hdown
      · exact absurd (h.eaten he) hlt
      · exact .inr ⟨by omega, hrank⟩
  obtain ⟨s₁, hrun, hreaches, hle, hless⟩ :=
    hrules rule s b y p h.calm hcall hspends h.patience hlower
  have hsame := hreaches.reading
  -- What the rule read and what it left of the patience is what its profile says.
  have h₁ : s₁.Ready limit (e || rule.consumes) (rule.left p) := by
    have hwithin := h.within
    refine ⟨hreaches.calm, hreaches.patience, by rw [hsame]; omega, fun he => ?_⟩
    rw [hsame]
    obtain he | hconsumes := (Bool.or_eq_true _ _).mp he
    · have hlt := h.eaten he
      omega
    · have hlt := hless hconsumes
      omega
  obtain ⟨s', e', p', hrun', hpost, h'⟩ := hnext b (hsteady b) h₁ (by rwa [hsame])
  exact ⟨s', e', p', run_call_eq_ok_iff.mpr ⟨b, s₁, hrun, hrun'⟩, hpost,
    h'.after hreaches.delimiters (by rwa [hsame])⟩

end Script

/-- A script that can read without mistakes does so, if that holds for the rules that it calls. -/
theorem Script.run_of_reads (hlimit : g.depthLimit = none) {rules : Rule → State → Reply}
    {calls : Calls} {limit rank : Nat} (hrules : Rule.Executes rules calls limit rank)
    (script : Script) : script.Performs g rules calls limit rank := by
  -- Induction on the script, one lemma for each constructor.
  induction script with
  | done answer =>
    intro e p post s a x hsteady h hreads
    obtain ⟨rfl, rfl⟩ := hreads
    exact ⟨s, e, p, rfl, hsteady, h.arrives⟩
  | fail fault =>
    intro e p post s a x hsteady h hreads
    cases hreads
  | look n next ih => exact performs_look n ih
  | text next ih => exact performs_text ih
  | stopped next ih => exact performs_stopped ih
  | exhausted next ih => exact performs_exhausted ih
  | bump next ih => exact performs_bump ih
  | flush next ih => exact performs_flush ih
  -- What can be read without mistakes and warnings reports nothing.
  | complain x next ih =>
    intro e p post s a x hsteady h hreads
    cases hreads
  | remark problem next ih =>
    intro e p post s a x hsteady h hreads
    cases hreads.1
  | node k body next ihbody ihnext => exact performs_node k ihbody ihnext
  | group body next ihbody ihnext => exact performs_group ihbody ihnext
  | wrap k body next ihbody ihnext => exact performs_wrap k ihbody ihnext
  | deeper body next ihbody ihnext => exact performs_deeper hlimit ihbody ihnext
  | enclosed d construct ifEmpty body next ihbody ihnext =>
    exact performs_enclosed d construct ifEmpty ihbody ihnext
  | call rule next ih => exact performs_call hrules rule ih

/-! ## Rules -/

/-- A budget of 64 calls for each token ahead is enough. -/
theorem Rule.run_of_parses (hlimit : g.depthLimit = none) (budget : Nat) {rule : Rule} {s : State}
    {a : Bool} {x : Reading} {p : Nat} (h : s.Calm) (hparses : rule.Parses false s.reading a x)
    (hspends : rule.spends ≤ p) (hp : p ≤ s.patience)
    (hbudget : 64 * s.reading.input.length + rule.rank < budget) :
    ∃ s', rule.run g budget s = .ok (a, s') ∧ s.Reaches x (rule.left p) s' ∧
      x.input.length ≤ s.reading.input.length ∧
      (rule.consumes = true → x.input.length < s.reading.input.length) := by
  induction budget generalizing rule s a x p with
  | zero => omega
  | succ budget ih =>
    -- A call without consumption goes to a rule of lower rank, and there are fewer than 64 ranks.
    have hcalls : Rule.Executes (Rule.run g budget) (Parses false) s.reading.input.length
        rule.rank := by
      intro rule' t b y q ht hcall hspends' hq hlower
      have hrank : rule'.rank < 64 := by
        have hle := rule'.spends_le
        simp only [spends, fullPatience] at hle
        omega
      exact ih ht hcall hspends' hq (by omega)
    -- The rule keeps within what it may spend, and the state is ready for it.
    have hsteady := rule.steady hspends (Nat.le_trans hp h.patience)
    have hready : s.Ready s.reading.input.length false p := ⟨h, hp, Nat.le_refl _, by simp⟩
    obtain ⟨s', e', p', hrun, ⟨hconsumes, hleft⟩, h'⟩ :=
      Script.run_of_reads hlimit hcalls rule.script hsteady hready (parses_iff.mp hparses)
    refine ⟨s', hrun, ⟨h'.ready.calm, h'.reading, h'.delimiters,
      Nat.le_trans hleft h'.ready.patience⟩, h'.shorter, fun hc => ?_⟩
    rw [← h'.reading]
    exact h'.ready.eaten (hconsumes hc)

/-- A source whose tokens can be read without mistakes has a tree, and nothing is reported. -/
theorem parseLexed_of_parses {recovery : Bool} {source : String} {tokens : List Token}
    {children : List Tree} (hspelling : Token.spelling tokens = source)
    (hlexed : ∀ t ∈ tokens, t.kind.isLexError = false)
    (hparses : (Rule.Parses false).To .program ⟨(Token.significant tokens).map Token.label, []⟩
      ⟨[], children⟩) :
    ∃ p, parseLexed ⟨recovery, none, none⟩ source tokens = .ok (.ok p) ∧ p.diagnostics = [] ∧
      p.tree.significant = .node .program children := by
  obtain ⟨a, hparses⟩ := hparses
  have hcalm : (State.initial tokens none).Calm :=
    ⟨by simp [State.Waits, State.initial], hlexed, rfl, rfl, rfl, rfl, Nat.le_refl _⟩
  have hreading : (State.initial tokens none).reading =
      ⟨(Token.significant tokens).map Token.label, []⟩ := by
    simp [State.reading, State.initial]
  rw [← hreading] at hparses
  -- The budget of a parse covers the tokens and the ranks.
  have hbudget : 64 * (State.initial tokens none).reading.input.length + Rule.program.rank <
      callBudget tokens := by
    rw [hreading, callBudget, List.length_map, Rule.rank]
    omega
  obtain ⟨s, hrun, hreaches, -, -⟩ := Rule.run_of_parses
    (g := ⟨Text.byteLength source.toList, recovery, none⟩) rfl (callBudget tokens) hcalm hparses
    Rule.program.spends_le (Nat.le_refl _) hbudget
  -- The tree spells out the source, so the check at the end passes.
  have htext : (Tree.node .program s.frame.toList).text = source := by
    rw [Rule.run_program_text hrun hreaches.calm.supplied hreaches.calm.running, hspelling]
  refine ⟨⟨.node .program s.frame.toList, []⟩, ?_, rfl, ?_⟩
  · refine bind_eq_ok_iff.mpr ⟨(a, s), hrun, ?_⟩
    show s.finish source = _
    simp [State.finish, hreaches.calm.supplied, hreaches.calm.running, hreaches.calm.silent, htext]
  · have hframe : Tree.eraseAll Kind.isSkipped s.frame.toList = children :=
      congrArg Reading.frame hreaches.reading
    rw [Tree.significant, Tree.erase, hframe]

end ScriptTree
