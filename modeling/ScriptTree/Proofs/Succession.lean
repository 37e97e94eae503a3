import ScriptTree.Proofs.Cleanness

/-!
# Later states

`State.Extends` is about reports.  `State.Later` is about the rest of what a run can do to a state,
whether it succeeds or not: tokens are consumed from the front and paid for, delimiters that were
open stay open, and a parse that has halted is silent.

## Key results

- `Rule.run_later`: the state after a rule is a later one
-/

namespace ScriptTree

namespace State

variable {g : Setting} {s s' s'' : State}

/-- How many significant tokens are ahead. -/
def distance (s : State) : Nat := (Token.significant s.rest).length

/-- There are steps left for all tokens ahead. -/
def Funded (s : State) : Prop := s.exhausted = none ∧ ∀ n, s.steps = some n → s.distance ≤ n

/-- A state later in the same parse, with the same delimiters open. -/
structure Later (g : Setting) (s s' : State) : Prop where
  rest : s'.rest <:+ s.rest
  delimiters : s'.delimiters = s.delimiters
  consumedTo : s'.consumedTo = s.consumedTo ∨ ∃ t ∈ s.rest, s'.consumedTo = some t.stop
  silent : s.halted = true → s'.halted = true ∧ s'.diagnostics = s.diagnostics
  /-- Nothing halts a parse with recovery. -/
  running : g.recovery = true → s'.halted = s.halted
  exhausted : s'.exhausted = none → s.exhausted = none
  /-- Without a bound on the nesting only the steps can run out. -/
  shallow : g.depthLimit = none → s.exhausted ≠ some .depth → s'.exhausted ≠ some .depth
  /-- Each consumed token takes a step. -/
  paid : s'.exhausted = none → s'.steps.map (s.distance + ·) = s.steps.map (s'.distance + ·)
  funded : g.depthLimit = none → s.Funded → s'.exhausted = none

/-- Nothing was consumed and no limit was met, and reports were added only before an error halted
    the parse. -/
theorem Later.of_still (hrest : s'.rest = s.rest) (hdelimiters : s'.delimiters = s.delimiters)
    (hconsumedTo : s'.consumedTo = s.consumedTo) (hexhausted : s'.exhausted = s.exhausted)
    (hsteps : s'.steps = s.steps) (hrunning : g.recovery = true → s'.halted = s.halted)
    (hsilent : s.halted = true → s'.halted = true ∧ s'.diagnostics = s.diagnostics) :
    s.Later g s' where
  rest := by simp [hrest]
  delimiters := hdelimiters
  consumedTo := .inl hconsumedTo
  silent := hsilent
  running := hrunning
  exhausted h := by rwa [hexhausted] at h
  shallow _ h := by rwa [hexhausted]
  paid _ := by rw [hsteps, distance, distance, hrest]
  funded _ h := by rw [hexhausted, h.1]

/-- A state is as late as itself. -/
theorem Later.refl (s : State) : s.Later g s :=
  .of_still rfl rfl rfl rfl rfl (fun _ => rfl) fun h => ⟨h, rfl⟩

/-- The steps that are left are still enough. -/
private theorem Later.funds (h : s.Later g s') (hdepth : g.depthLimit = none) (hfunded : s.Funded) :
    s'.Funded := by
  have hexhausted := h.funded hdepth hfunded
  refine ⟨hexhausted, fun n' hn' => ?_⟩
  have hpaid := h.paid hexhausted
  rw [hn'] at hpaid
  cases hn : s.steps with
  | none =>
    rw [hn] at hpaid
    cases hpaid
  | some n =>
    have hle := hfunded.2 n hn
    simp only [hn, Option.map_some, Option.some.injEq] at hpaid
    omega

/-- What was consumed ends no earlier than before. -/
theorem Later.consumedTo_ge (h : s.Later g s') {o : Nat}
    (hconsumedTo : ∃ n, s.consumedTo = some n ∧ o ≤ n) (hrest : ∀ t ∈ s.rest, o ≤ t.start) :
    ∃ n, s'.consumedTo = some n ∧ o ≤ n := by
  obtain heq | ⟨t, ht, heq⟩ := h.consumedTo
  · rw [heq]
    exact hconsumedTo
  · exact ⟨t.stop, heq, Nat.le_trans (hrest t ht) (Nat.le_add_right _ _)⟩

/-- What is later than a later state is later. -/
theorem Later.trans (h : s.Later g s') (h' : s'.Later g s'') : s.Later g s'' where
  rest := h'.rest.trans h.rest
  delimiters := h'.delimiters.trans h.delimiters
  consumedTo := by
    -- What was consumed last is older than both steps, or a token that was unread.
    obtain heq | ⟨t, ht, heq⟩ := h'.consumedTo
    · rw [heq]
      exact h.consumedTo
    · exact .inr ⟨t, h.rest.subset ht, heq⟩
  silent hhalted := by
    obtain ⟨hhalted', heq⟩ := h.silent hhalted
    obtain ⟨hhalted'', heq'⟩ := h'.silent hhalted'
    exact ⟨hhalted'', heq'.trans heq⟩
  running hrecovery := (h'.running hrecovery).trans (h.running hrecovery)
  exhausted hnone := h.exhausted (h'.exhausted hnone)
  shallow hdepth hs := h'.shallow hdepth (h.shallow hdepth hs)
  paid hnone := by
    have hpaid := h.paid (h'.exhausted hnone)
    have hpaid' := h'.paid hnone
    -- All three allowances are limited or none is, since a step only ever counts down.
    cases hn : s.steps <;> cases hn' : s'.steps <;> cases hn'' : s''.steps <;>
      simp_all only [Option.map_some, Option.map_none, Option.some.injEq, reduceCtorEq]
    omega
  funded hdepth hfunded := h'.funded hdepth (h.funds hdepth hfunded)

/-! ## One lemma for each change -/

/-- Skipping comes no closer to the end. -/
private theorem distance_skip : (s.skip g).distance = s.distance := by
  rw [distance, distance, skip_rest, significant_dropWhile]

/-- The frame has nothing to do with how late a state is. -/
private theorem later_withFrame (g : Setting) (s : State) (f : Array Tree) :
    s.Later g { s with frame := f } :=
  .of_still rfl rfl rfl rfl rfl (fun _ => rfl) fun h => ⟨h, rfl⟩

/-- Placing skipped tokens does not go back. -/
theorem later_drain (g : Setting) (s : State) : s.Later g s.drain :=
  .of_still rfl rfl rfl rfl rfl (fun _ => rfl) fun h => ⟨h, rfl⟩

/-- Leaving a level does not go back. -/
theorem later_leave (g : Setting) (s : State) : s.Later g s.leave :=
  .of_still rfl rfl rfl rfl rfl (fun _ => rfl) fun h => ⟨h, rfl⟩

/-- Skipping does not go back. -/
theorem later_skip (g : Setting) (s : State) : s.Later g (s.skip g) where
  rest := by rw [skip_rest]; exact List.dropWhile_suffix _
  delimiters := skip_delimiters
  consumedTo := .inl skip_consumedTo
  silent h := by rw [skip_eq]; simp [h, passReports]
  running h := by rw [skip_eq]; simp [h]
  exhausted h := by rwa [skip_exhausted] at h
  shallow _ h := by rwa [skip_exhausted]
  paid _ := by rw [skip_steps, distance_skip]
  funded _ h := by rw [skip_exhausted, h.1]

/-- A report does not go back. -/
theorem later_reportAt (g : Setting) (s : State) (o : Nat) (d : Diagnostic) :
    s.Later g (s.reportAt g o d) :=
  .of_still (reportAt_rest o d) (reportAt_delimiters o d) (reportAt_consumedTo o d)
    (reportAt_exhausted o d) (reportAt_steps o d)
    (fun h => by unfold reportAt; split <;> simp [emit, h]) fun h => by simp [reportAt, h]

/-- A token ahead is one more step to the end. -/
private theorem distance_cons {t : Token} {ts : List Token} (hrest : s.rest = t :: ts)
    (ht : t.kind.isSkipped = false) : s.distance = (Token.significant ts).length + 1 := by
  rw [distance, hrest]
  simp [Token.significant, ht]

/-- Consuming a token goes on. -/
theorem later_consume {t : Token} {ts : List Token} (hrest : s.rest = t :: ts)
    (ht : t.kind.isSkipped = false) : s.Later g (s.consume t ts) where
  rest := by rw [hrest]; exact List.suffix_cons t ts
  delimiters := consume_delimiters t ts
  consumedTo := .inr ⟨t, by rw [hrest]; exact List.mem_cons_self, rfl⟩
  silent h := ⟨by rw [consume_halted, h], consume_diagnostics t ts⟩
  running _ := consume_halted t ts
  exhausted := (extends_consume hrest ht).2.1
  shallow _ h := by
    unfold consume spend
    -- Without a limit, with steps left, and with none.
    split
    · exact h
    · cases hexhausted : s.exhausted <;> simp_all [drain]
    · exact h
  paid h := by
    have hdistance : (s.consume t ts).distance = (Token.significant ts).length := rfl
    rw [hdistance, distance_cons hrest ht]
    unfold consume spend at h ⊢
    split
    · next hsteps => simp [drain, hsteps]
    · next hsteps =>
      cases hexhausted : s.exhausted <;> simp [hsteps, drain, hexhausted] at h
    · next n hsteps =>
      simp only [drain, Option.map_some, hsteps, Option.some.injEq]
      omega
  funded _ h := by
    unfold consume spend
    split
    · exact h.1
    · next hsteps =>
      -- Steps cannot have run out while a token is ahead.
      have hle := h.2 0 hsteps
      rw [distance_cons hrest ht] at hle
      omega
    · exact h.1

/-- The patience has nothing to do with how late a state is. -/
theorem later_withPatience (p : Nat) : s.Later g { s with patience := p } :=
  .of_still rfl rfl rfl rfl rfl (fun _ => rfl) fun h => ⟨h, rfl⟩

/-- A limit on the nesting that is exceeded ends the parse. -/
theorem later_enter {b : Bool} (h : s.enter g = (b, s')) : s.Later g s' := by
  cases b with
  | false =>
    have hexhausted := exhausted_of_enter h
    obtain ⟨hdeep, rfl⟩ := enter_eq_false_iff.mp h
    have hlimit : g.depthLimit ≠ none := by
      intro hdepth
      rw [hdepth] at hdeep
      cases hdeep
    exact ⟨List.suffix_rfl, rfl, .inl rfl, fun h => ⟨h, rfl⟩, fun _ => rfl,
      fun h => absurd h hexhausted, fun h => absurd h hlimit, fun h => absurd h hexhausted,
      fun h => absurd h hlimit⟩
  | true =>
    obtain ⟨-, rfl⟩ := enter_eq_true_iff.mp h
    exact .of_still rfl rfl rfl rfl rfl (fun _ => rfl) fun h => ⟨h, rfl⟩

/-- What goes on between an opener and its closer leaves the delimiters outside alone. -/
theorem Later.delimited {x : Delimiter × Span}
    (h : ({ s with delimiters := x :: s.delimiters } : State).Later g s') :
    s.Later g { s' with delimiters := s'.delimiters.tail } :=
  ⟨h.rest, by rw [h.delimiters]; rfl, h.consumedTo, h.silent, h.running, h.exhausted, h.shallow,
    h.paid, h.funded⟩

/-- No script goes back. -/
theorem later_lasting : Lasting g (Later g) where
  refl := .refl
  trans := .trans
  skip := later_skip g
  consume := later_consume
  reportAt := later_reportAt g
  withPatience _ := later_withPatience
  drain := later_drain g
  regrouped {s s₁ f} h _ :=
    (later_withFrame g s #[]).trans (h.trans (later_withFrame g s₁ f))
  refused := later_enter
  granted {_ _ s₂} henter h := (later_enter henter).trans (h.trans (later_leave g s₂))
  delimited := .delimited

end State

variable {g : Setting}

/-- A script leads to a later state if the rules it calls do. -/
theorem Script.run_later {rules : Rule → State → Reply}
    (hrules : ∀ rule s a s', rules rule s = .ok (a, s') → s.Later g s')
    {script : Script} {s s' : State} {a : Bool} (h : script.run g rules s = .ok (a, s')) :
    s.Later g s' := Script.run_lasting State.later_lasting hrules h

/-- A rule leads to a later state. -/
theorem Rule.run_later {budget : Nat} {rule : Rule} {s s' : State} {a : Bool}
    (h : rule.run g budget s = .ok (a, s')) : s.Later g s' :=
  Rule.run_lasting State.later_lasting h

end ScriptTree
