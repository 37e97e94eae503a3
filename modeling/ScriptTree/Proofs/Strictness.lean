import ScriptTree.Proofs.Safety

/-!
# Parsing without recovery

Without recovery, a parse does what it would have done with recovery up to the first error.  Then
it has halted, and while it finds its way out of the rules nothing more is reported.

The two parses go through the same states until one of them halts (`Forks`).  After that only their
reports matter: those of the one that halted stay as they are, and those of the other one grow.

## Key results

- `Rule.run_forks`: a rule with recovery and without
- `parse_strict`: a parse without recovery is one with recovery, cut at the first error
-/

namespace ScriptTree

/-- The same setting without recovery. -/
def Setting.strict (g : Setting) : Setting := { g with recovery := false }

namespace State

variable {g : Setting} {s s' t t' : State}

/-- The parse goes on, and there was no error yet. -/
structure Errorless (s : State) : Prop where
  running : s.halted = false
  reports : ∀ d ∈ s.diagnostics.toList, d.isError = false

/-- The second state has halted at the first error of the first one. -/
def CutBy (s s' : State) : Prop :=
  s'.halted = true ∧ s'.diagnostics.toList <+: s.diagnostics.toList ∧
    ∃ before d, s'.diagnostics.toList = before ++ [d] ∧ (∀ x ∈ before, x.isError = false) ∧
      d.isError = true

/-- The first error stays where it is, and nothing is reported after it. -/
theorem CutBy.trans (h : s.CutBy s') (hgrows : s.diagnostics.toList <+: t.diagnostics.toList)
    (hhalted : t'.halted = true) (hsilent : t'.diagnostics = s'.diagnostics) : t.CutBy t' :=
  ⟨hhalted, by rw [hsilent]; exact h.2.1.trans hgrows, by rw [hsilent]; exact h.2.2⟩

/-- A strict parse is cut by the first error, which the other one goes on from. -/
private theorem Errorless.cutBy (h : s.Errorless) {d : Diagnostic} (ds : List Diagnostic)
    (hd : d.isError = true) (ht : t.diagnostics.toList = s.diagnostics.toList ++ d :: ds)
    (hhalted : t'.halted = true) (ht' : t'.diagnostics.toList = s.diagnostics.toList ++ [d]) :
    t.CutBy t' := by
  refine ⟨hhalted, ?_, _, d, ht', h.reports, hd⟩
  rw [ht, ht']
  exact ⟨ds, by simp⟩

end State

open State

variable {g : Setting} {α β : Type} {state : α → State} {state' : β → State}

/-- Two outcomes, one with recovery and one without: they are the same as long as there is no error,
    and the second one is cut at the first error. -/
def Forks (state : α → State) (x x' : Except Fault α) : Prop :=
  ∀ r r', x = .ok r → x' = .ok r' →
    r' = r ∧ (state r).Errorless ∨ (state r).CutBy (state r')

/-- A computation that makes no error does not fork. -/
theorem Forks.same {x : Except Fault α} (h : ∀ r, x = .ok r → (state r).Errorless) :
    Forks state x x := by
  intro r r' hr hr'
  rw [hr] at hr'
  cases hr'
  exact .inl ⟨rfl, h r hr⟩

/-- Reports are only added. -/
def Grows (state : α → State) (state' : β → State) (f : α → Except Fault β) : Prop :=
  ∀ r q, f r = .ok q → (state r).diagnostics.toList <+: (state' q).diagnostics.toList

/-- After a halt, nothing is reported. -/
def Silent (state : α → State) (state' : β → State) (f : α → Except Fault β) : Prop :=
  ∀ r q, f r = .ok q → (state r).halted = true →
    (state' q).halted = true ∧ (state' q).diagnostics = (state r).diagnostics

/-- After a fork, one outcome grows and the other one is silent. -/
theorem Forks.bind {x x' : Except Fault α} {f e : α → Except Fault β} (h : Forks state x x')
    (hf : ∀ r, x = .ok r → (state r).Errorless → Forks state' (f r) (e r))
    (hgrows : Grows state state' f) (hsilent : Silent state state' e) :
    Forks state' (x >>= f) (x' >>= e) := by
  intro q q' hq hq'
  obtain ⟨r, hr, hq⟩ := bind_eq_ok_iff.mp hq
  obtain ⟨r', hr', hq'⟩ := bind_eq_ok_iff.mp hq'
  obtain ⟨rfl, herrorless⟩ | hcut := h r r' hr hr'
  · exact hf r' hr herrorless q q' hq hq'
  · obtain ⟨hhalted, hsame⟩ := hsilent r' q' hq' hcut.1
    exact .inr (hcut.trans (hgrows r q hq) hhalted hsame)

namespace State

/-! ## Operations -/

variable {s s' : State}

/-- There is nothing to skip. -/
def Settled (s : State) : Prop := ∀ t ts, s.rest = t :: ts → t.kind.isSkipped = false

/-- After skipping a state is settled. -/
theorem settled_skip : (s.skip g).Settled := by
  intro t ts hrest
  rw [skip_rest] at hrest
  exact Token.isSkipped_of_dropWhile hrest

/-- In a settled state there is nothing to skip. -/
theorem Settled.skip_eq (h : s.Settled) (g : Setting) : s.skip g = s := by
  unfold skip
  cases hrest : s.rest with
  | nil => rw [passAll, ← hrest]
  | cons t ts => rw [passAll, h t ts hrest, if_neg (by decide), ← hrest]

/-- There is a lexical error exactly if there is something to report about it. -/
private theorem any_isLexError (ts : List Token) :
    ts.any (·.kind.isLexError) = !(Token.lexDiagnostics ts).isEmpty := by
  induction ts with
  | nil => rfl
  | cons t ts ih =>
    rw [List.any_cons, ih]
    cases h : t.kind.isLexError <;> simp [Token.lexDiagnostics, h]

/-- Without recovery, the first lexical error ends the parse. -/
private theorem Errorless.forks_skip (h : s.Errorless) (hrecovery : g.recovery = true) :
    Forks id (.ok (s.skip g)) (.ok (s.skip g.strict)) := by
  intro r r' hr hr'
  cases hr
  cases hr'
  have hany := any_isLexError (s.rest.takeWhile (·.kind.isSkipped))
  -- If there are lexical errors among the tokens skipped, the first of them is where the strict
  -- parse is cut off.
  cases hlex : Token.lexDiagnostics (s.rest.takeWhile (·.kind.isSkipped)) with
  | nil =>
    rw [hlex] at hany
    -- No lexical error among them: both parses go on as before.
    refine .inl ⟨?_, ?_, fun d hd => h.reports d ?_⟩
    · rw [skip_eq, skip_eq]
      simp [passReports, hlex, hany]
    · rw [skip_eq]
      simp [h.running, hrecovery]
    · rw [skip_eq] at hd
      simpa [passReports, hlex] using hd
  | cons d ds =>
    rw [hlex] at hany
    have hd : d ∈ Token.lexDiagnostics (s.rest.takeWhile (·.kind.isSkipped)) := by
      rw [hlex]
      exact List.mem_cons_self
    obtain ⟨t, -, rfl⟩ := List.mem_map.mp hd
    -- The first lexical error is kept by both, and the strict parse halts there.
    refine .inr (h.cutBy ds t.isError_lexDiagnostic ?_ ?_ ?_)
    · rw [skip_eq]
      simp [passReports, h.running, hrecovery, hlex]
    · rw [skip_eq]
      simp [Setting.strict, hany]
    · rw [skip_eq]
      simp [passReports, h.running, Setting.strict, hlex]

/-- Without recovery, an error that the grammar reports ends the parse. -/
private theorem Errorless.forks_reportAt (h : s.Errorless) (o : Nat) (d : Diagnostic) :
    Forks id (.ok (s.reportAt g o d)) (.ok (s.reportAt g.strict o d)) := by
  intro r r' hr hr'
  cases hr
  cases hr'
  unfold reportAt
  split
  -- A place that was reported before is not reported again.
  · exact .inl ⟨rfl, h⟩
  · cases herror : d.isError with
    -- A warning halts neither parse, and an error halts the strict one only.
    | false =>
      refine .inl ⟨?_, ?_, fun x hx => ?_⟩
      · simp [emit, herror]
      · simp [emit, h.running, herror]
      · obtain hx | rfl : x ∈ s.diagnostics.toList ∨ x = d := by simpa [emit] using hx
        · exact h.reports x hx
        · exact herror
    | true =>
      refine .inr (h.cutBy [] herror ?_ ?_ ?_)
      · simp [emit]
      · simp [emit, Setting.strict, herror]
      · simp [emit]

/-! ### The rest is the same -/

/-- A lookahead skips by itself. -/
private theorem look_skip (n : Nat) : (s.skip g).look g n = s.look g n := by
  unfold look
  rw [skip_skip]

/-- Consuming a token skips by itself. -/
private theorem bump_skip : (s.skip g).bump g = s.bump g := by
  unfold bump
  rw [skip_skip]

/-- To describe the current token skips by itself. -/
private theorem describeFront_skip : (s.skip g).describeFront g = s.describeFront g := by
  unfold describeFront
  rw [skip_skip]

/-- A complaint skips by itself. -/
private theorem complain_skip (x : Complaint) : (s.skip g).complain g x = s.complain g x := by
  unfold complain
  rw [describeFront_skip]

/-- Eating a token skips by itself. -/
private theorem eat_skip (k : Kind) : (s.skip g).eat g k = s.eat g k := by
  unfold eat
  rw [look_skip]

/-- Skipping does not depend on the delimiters. -/
theorem skip_withDelimiters (ds : List (Delimiter × Span)) :
    ({ s with delimiters := ds } : State).skip g = { s.skip g with delimiters := ds } := by
  rw [skip_eq, skip_eq]

/-- Closing a delimiter skips by itself. -/
private theorem closeDelimiter_skip (d : Delimiter) (construct : String) :
    (s.skip g).closeDelimiter g d construct = s.closeDelimiter g d construct := by
  unfold closeDelimiter
  rw [skip_delimiters, ← skip_withDelimiters, eat_skip]

/-- In a settled state a strict lookahead is no other. -/
private theorem Settled.look_strict (h : s.Settled) (n : Nat) : s.look g.strict n = s.look g n := by
  unfold look
  rw [h.skip_eq, h.skip_eq]

/-- In a settled state a strict parse consumes a token like any other. -/
private theorem Settled.bump_strict (h : s.Settled) : s.bump g.strict = s.bump g := by
  unfold bump
  rw [h.skip_eq, h.skip_eq]

/-- In a settled state a strict parse says the same about the current token. -/
private theorem Settled.describeFront_strict (h : s.Settled) :
    s.describeFront g.strict = s.describeFront g := by
  unfold describeFront
  simp only [h.skip_eq, h.look_strict]

/-- A lookahead leaves a settled state. -/
theorem settled_of_look {n : Nat} {k : Kind} (h : s.look g n = .ok (k, s')) : s'.Settled := by
  rw [← skip_of_look h]
  exact settled_skip

/-- In a settled state a strict parse eats a token like any other. -/
private theorem Settled.eat_strict (h : s.Settled) (k : Kind) : s.eat g.strict k = s.eat g k := by
  unfold eat
  rw [h.look_strict]
  cases hlook : s.look g 0 with
  | error fault => rfl
  | ok r =>
    have hr : r.2.Settled := settled_of_look hlook
    simp only [bind, Except.bind, hr.bump_strict]

/-- Reports depend on the diagnostics and on whether the parse has halted. -/
theorem Errorless.congr (h : s.Errorless) (hhalted : s'.halted = s.halted)
    (hdiagnostics : s'.diagnostics = s.diagnostics) : s'.Errorless :=
  ⟨hhalted.trans h.running, by rw [hdiagnostics]; exact h.reports⟩

/-- A lookahead in a settled state makes no error. -/
private theorem Errorless.of_look (h : s.Errorless) (hs : s.Settled) {n : Nat} {k : Kind}
    (hlook : s.look g n = .ok (k, s')) : s'.Errorless := by
  obtain ⟨-, -, rfl⟩ := look_eq_ok_iff.mp hlook
  rw [hs.skip_eq]
  exact h.congr rfl rfl

/-- Consuming a token in a settled state makes no error. -/
private theorem Errorless.of_bump (h : s.Errorless) (hs : s.Settled) (hbump : s.bump g = .ok s') :
    s'.Errorless := by
  obtain ⟨t, ts, -, rfl⟩ := bump_eq_ok_iff.mp hbump
  rw [hs.skip_eq]
  exact h.congr (consume_halted t ts) (consume_diagnostics t ts)

/-- Eating a token in a settled state makes no error. -/
theorem Errorless.of_eat (h : s.Errorless) (hs : s.Settled) {k : Kind} {b : Bool}
    (heat : s.eat g k = .ok (b, s')) : s'.Errorless ∧ (b = false → s'.Settled) := by
  obtain ⟨found, s₁, hlook, ⟨-, rfl, hbump⟩ | ⟨-, rfl, rfl⟩⟩ := eat_eq_ok_iff.mp heat
  · exact ⟨(h.of_look hs hlook).of_bump (settled_of_look hlook) hbump, fun h => by cases h⟩
  · exact ⟨h.of_look hs hlook, fun _ => settled_of_look hlook⟩

/-! ### Operations with recovery and without -/

/-- A complaint in a settled state is where the two parses part. -/
private theorem Errorless.forks_complain_settled (h : s.Errorless) (hs : s.Settled)
    (x : Complaint) : Forks id (s.complain g x) (s.complain g.strict x) := by
  intro t t' ht ht'
  unfold complain at ht ht'
  rw [hs.describeFront_strict] at ht'
  obtain ⟨⟨found, s₁⟩, hfound, ht⟩ := bind_eq_ok_iff.mp ht
  obtain ⟨⟨found', s₁'⟩, hfound', ht'⟩ := bind_eq_ok_iff.mp ht'
  rw [hfound] at hfound'
  cases hfound'
  -- Where a report goes does not depend on whether the parse recovers.
  have hregion : s₁.region g.strict = s₁.region g := rfl
  have hspan : s₁.frontSpan g.strict = s₁.frontSpan g := rfl
  dsimp only at ht ht'
  rw [hregion, hspan] at ht'
  -- There is a place for the report, or the parse is at an end before it.
  split at ht
  · next region hsome =>
    rw [hsome] at ht'
    obtain ⟨p, hs₁⟩ := describeFront_eq_ok hfound
    rw [hs.skip_eq] at hs₁
    have h₁ : s₁.Errorless := by
      rw [hs₁]
      exact h.congr rfl rfl
    exact h₁.forks_reportAt _ _ t t' ht ht'
  · cases ht

/-- What starts by skipping can be taken after that. -/
private theorem Errorless.forks_of_skip (h : s.Errorless) (hrecovery : g.recovery = true)
    {f e : State → Except Fault β}
    (hf : ∀ r, r.Errorless → r.Settled → Forks state' (f r) (e r))
    (hgrows : Grows id state' f) (hsilent : Silent id state' e) :
    Forks state' (f (s.skip g)) (e (s.skip g.strict)) :=
  (h.forks_skip hrecovery).bind (f := f) (e := e)
    (fun r hr hr' => hf r hr' (by cases hr; exact settled_skip)) hgrows hsilent

/-- A lookahead parts the two parses only at a lexical error. -/
private theorem Errorless.forks_look (h : s.Errorless) (hrecovery : g.recovery = true) (n : Nat) :
    Forks Prod.snd (s.look g n) (s.look g.strict n) := by
  rw [← look_skip, ← look_skip (g := g.strict)]
  refine h.forks_of_skip hrecovery (f := fun r => r.look g n) (e := fun r => r.look g.strict n)
    (fun r hr hs => ?_) (fun r q hq => (extends_lasting.look hq).1)
    fun r q hq => (later_lasting.look hq).silent
  rw [hs.look_strict]
  exact .same fun q hq => hr.of_look hs hq

/-- Consuming a token parts the two parses only at a lexical error. -/
private theorem Errorless.forks_bump (h : s.Errorless) (hrecovery : g.recovery = true) :
    Forks id (s.bump g) (s.bump g.strict) := by
  rw [← bump_skip, ← bump_skip (g := g.strict)]
  refine h.forks_of_skip hrecovery (f := fun r => r.bump g) (e := fun r => r.bump g.strict)
    (fun r hr hs => ?_) (fun r q hq => (extends_lasting.bump hq).1)
    fun r q hq => (later_lasting.bump hq).silent
  rw [hs.bump_strict]
  exact .same fun q hq => hr.of_bump hs hq

/-- A complaint parts the two parses. -/
private theorem Errorless.forks_complain (h : s.Errorless) (hrecovery : g.recovery = true)
    (x : Complaint) : Forks id (s.complain g x) (s.complain g.strict x) := by
  rw [← complain_skip, ← complain_skip (g := g.strict)]
  exact h.forks_of_skip hrecovery (f := fun r => r.complain g x)
    (e := fun r => r.complain g.strict x) (fun r hr hs => hr.forks_complain_settled hs x)
    (fun r q hq => (extends_lasting.complain hq).1) fun r q hq => (later_lasting.complain hq).silent

/-- A warning parts the two parses only at a lexical error. -/
private theorem Errorless.forks_remark (h : s.Errorless) (hrecovery : g.recovery = true)
    (problem : Problem) : Forks id (.ok (s.remark g problem)) (.ok (s.remark g.strict problem)) :=
  h.forks_of_skip hrecovery
    (f := fun r => .ok (r.reportAt g (r.frontSpan g).start (.ofProblem problem (r.frontSpan g))))
    (e := fun r => .ok (r.reportAt g.strict (r.frontSpan g).start
      (.ofProblem problem (r.frontSpan g))))
    (fun r hr _ => hr.forks_reportAt _ _)
    (fun _ _ hq => by cases hq; exact (extends_reportAt g _ _ _).1)
    fun _ _ hq => by cases hq; exact (later_reportAt g.strict _ _ _).silent

/-- An opener parts the two parses only at a lexical error. -/
private theorem Errorless.forks_openDelimiter (h : s.Errorless) (hrecovery : g.recovery = true)
    (d : Delimiter) : Forks id (s.openDelimiter g d) (s.openDelimiter g.strict d) :=
  h.forks_of_skip hrecovery
    (f := fun r => bump g { r with delimiters := (d, r.frontSpan g) :: r.delimiters })
    (e := fun r => bump g.strict { r with delimiters := (d, r.frontSpan g) :: r.delimiters })
    (fun r hr _ => (hr.congr rfl rfl : Errorless { r with
      delimiters := (d, r.frontSpan g) :: r.delimiters }).forks_bump hrecovery)
    (fun _ _ hq => (extends_lasting.bump hq).1) fun _ _ hq => (later_lasting.bump hq).silent

/-- An expected token parts the two parses only if it is missing. -/
private theorem Errorless.forks_expect (h : s.Errorless) (hs : s.Settled) (k : Kind)
    (what : String) : Forks Prod.snd (s.expect g k what) (s.expect g.strict k what) := by
  intro r r' hr hr'
  unfold expect at hr hr'
  rw [hs.eat_strict] at hr'
  obtain ⟨⟨eaten, s₁⟩, heat, hr⟩ := bind_eq_ok_iff.mp hr
  obtain ⟨⟨eaten', s₁'⟩, heat', hr'⟩ := bind_eq_ok_iff.mp hr'
  rw [heat] at heat'
  cases heat'
  obtain ⟨h₁, hs₁⟩ := h.of_eat hs heat
  cases eaten with
  | true =>
    -- The token was there.
    cases hr
    cases hr'
    exact .inl ⟨rfl, h₁⟩
  | false =>
    obtain ⟨s₂, hcomplain, hr⟩ := bind_eq_ok_iff.mp hr
    obtain ⟨s₂', hcomplain', hr'⟩ := bind_eq_ok_iff.mp hr'
    cases hr
    cases hr'
    -- The lookahead was the same, so the two can only part at the complaint.
    obtain ⟨rfl, h₂⟩ | hcut := h₁.forks_complain_settled (hs₁ rfl) _ s₂ s₂' hcomplain hcomplain'
    · exact .inl ⟨rfl, h₂⟩
    · exact .inr hcut

/-- A delimiter that is not closed parts the two parses. -/
private theorem Errorless.forks_reportUnclosed (h : s.Errorless) (d : Delimiter)
    (construct : String) (opener : Span) : Forks id (s.reportUnclosed g d construct opener)
      (s.reportUnclosed g.strict d construct opener) := by
  have hspan : s.frontSpan g.strict = s.frontSpan g := rfl
  unfold reportUnclosed
  rw [hspan]
  dsimp only
  split
  · exact h.forks_reportAt _ _
  · exact fun r r' hr => by cases hr

/-- Closing a delimiter parts the two parses only if the closer is missing. -/
private theorem Errorless.forks_closeDelimiter_settled (h : s.Errorless) (hs : s.Settled)
    (d : Delimiter) (construct : String) :
    Forks id (s.closeDelimiter g d construct) (s.closeDelimiter g.strict d construct) := by
  intro t t' ht ht'
  have hpopped : ({ s with delimiters := s.delimiters.tail } : State).Errorless := h.congr rfl rfl
  have hsettled : ({ s with delimiters := s.delimiters.tail } : State).Settled := hs
  obtain ⟨-, closed, s₁, heat, hclosed⟩ := closeDelimiter_eq_ok_iff.mp ht
  obtain ⟨-, closed', s₁', heat', hclosed'⟩ := closeDelimiter_eq_ok_iff.mp ht'
  rw [hsettled.eat_strict, heat] at heat'
  cases heat'
  obtain ⟨h₁, hs₁⟩ := hpopped.of_eat hsettled heat
  -- The runs eat alike.  They part where the missing closer is reported.
  cases closed with
  -- The closer was there.
  | true =>
    obtain rfl : s₁ = t := by simpa using hclosed
    obtain rfl : s₁ = t' := by simpa using hclosed'
    exact .inl ⟨rfl, h₁⟩
  | false =>
    have hs₁ := hs₁ rfl
    simp only [Bool.false_eq_true, false_and, true_and, false_or, hs₁.skip_eq] at hclosed hclosed'
    obtain ⟨x, hopen, hrest, hreport⟩ | ⟨hother, b, hexpect⟩ := hclosed
    -- At the end of the source both report the opener.
    · obtain ⟨x', hopen', -, hreport'⟩ | ⟨hother, -⟩ := hclosed'
      · obtain rfl : x = x' := Option.some.inj (hopen.symm.trans hopen')
        exact h₁.forks_reportUnclosed d construct _ t t' hreport hreport'
      · simp [hopen, hrest] at hother
    -- Elsewhere both complain about what stands in place of the closer.
    · obtain ⟨x, hopen, hrest, -⟩ | ⟨-, b', hexpect'⟩ := hclosed'
      · simp [hopen, hrest] at hother
      · obtain ⟨heq, h₂⟩ | hcut := h₁.forks_expect hs₁ _ _ _ _ hexpect hexpect'
        · cases heq
          exact .inl ⟨rfl, h₂⟩
        · exact .inr hcut

/-- Closing a delimiter parts the two parses at a lexical error, or if the closer is missing. -/
private theorem Errorless.forks_closeDelimiter (h : s.Errorless) (hrecovery : g.recovery = true)
    (d : Delimiter) (construct : String) :
    Forks id (s.closeDelimiter g d construct) (s.closeDelimiter g.strict d construct) := by
  rw [← closeDelimiter_skip, ← closeDelimiter_skip (g := g.strict)]
  exact h.forks_of_skip hrecovery (f := fun r => r.closeDelimiter g d construct)
    (e := fun r => r.closeDelimiter g.strict d construct)
    (fun r hr hs => hr.forks_closeDelimiter_settled hs d construct)
    (fun _ _ hq => (extends_lasting.closeDelimiter hq).1)
    fun _ _ hq => (later_lasting.closeDelimiter hq).silent

/-- An empty block parts the two parses. -/
private theorem Errorless.forks_closeEmpty (h : s.Errorless) (ifEmpty : Option Problem)
    (answer : Bool) (opener : Span) :
    Forks id (s.closeEmpty g ifEmpty answer opener)
      (s.closeEmpty g.strict ifEmpty answer opener) := by
  unfold closeEmpty
  split
  · unfold remarkSince
    split
    · exact h.forks_reportAt _ _
    · exact fun r r' hr => by cases hr
  · exact .same fun r hr => by cases hr; exact h

/-- Nesting has nothing to do with recovery. -/
private theorem enter_strict : s.enter g.strict = s.enter g := rfl

/-- To ask for a level makes no error that the grammar knows of. -/
private theorem Errorless.of_enter (h : s.Errorless) {b : Bool} (henter : s.enter g = (b, s')) :
    s'.Errorless := by
  obtain ⟨_, _, _, rfl⟩ := enter_eq henter
  exact h.congr rfl rfl

end State

/-! ## Scripts and rules -/

/-- What rules do with recovery and without. -/
def Rule.Forked (rules rules' : Rule → State → Reply) : Prop :=
  ∀ rule s, s.Errorless → Forks Prod.snd (rules rule s) (rules' rule s)

/-- A script with recovery and without. -/
theorem Script.run_forks (hrecovery : g.recovery = true) {rules rules' : Rule → State → Reply}
    (hrules : Rule.Forked rules rules')
    (hextends : ∀ rule s a s', rules rule s = .ok (a, s') → s.Extends s')
    (hlater : ∀ rule s a s', rules' rule s = .ok (a, s') → s.Later g.strict s') {script : Script}
    {s : State} (h : s.Errorless) :
    Forks Prod.snd (script.run g rules s) (script.run g.strict rules' s) := by
  -- The reports of a run only grow, and a halted strict run reports nothing more.
  have hgrows {script : Script} {s : State} {r : Bool × State}
      (hr : script.run g rules s = .ok r) : s.diagnostics.toList <+: r.2.diagnostics.toList :=
    (run_extends hextends hr).1
  have hsilent {script : Script} {s : State} {r : Bool × State}
      (hr : script.run g.strict rules' s = .ok r) (hhalted : s.halted = true) :
      r.2.halted = true ∧ r.2.diagnostics = s.diagnostics :=
    (run_later hlater hr).silent hhalted
  -- Induction on the script.  As long as no error was reported the two runs are in the same state.
  induction script generalizing s with
  | done answer => exact .same fun r hr => by cases hr; exact h
  | fail fault => exact fun r r' hr => by cases hr
  | look n next ih =>
    exact (h.forks_look hrecovery n).bind (fun r _ hr => ih r.1 hr) (fun _ _ => hgrows)
      fun _ _ => hsilent
  | text next ih =>
    exact h.forks_of_skip hrecovery (f := fun r => (next r.frontText).run g rules r)
      (e := fun r => (next r.frontText).run g.strict rules' r) (fun r hr _ => ih _ hr)
      (fun _ _ => hgrows) fun _ _ => hsilent
  | stopped next ih =>
    exact h.forks_of_skip hrecovery (f := fun r => (next r.isStopped).run g rules r)
      (e := fun r => (next r.isStopped).run g.strict rules' r) (fun r hr _ => ih _ hr)
      (fun _ _ => hgrows) fun _ _ => hsilent
  | exhausted next ih => exact ih _ h
  | bump next ih =>
    exact (h.forks_bump hrecovery).bind (fun r _ hr => ih hr) (fun _ _ => hgrows)
      fun _ _ => hsilent
  | flush next ih =>
    exact h.forks_of_skip hrecovery (f := fun r => next.run g rules r.drain)
      (e := fun r => next.run g.strict rules' r.drain) (fun r hr _ => ih (hr.congr rfl rfl))
      (fun _ _ => hgrows) fun _ _ => hsilent
  | complain x next ih =>
    exact (h.forks_complain hrecovery x).bind (fun r _ hr => ih hr) (fun _ _ => hgrows)
      fun _ _ => hsilent
  | remark problem next ih =>
    exact (h.forks_remark hrecovery problem).bind (f := fun r => next.run g rules r)
      (e := fun r => next.run g.strict rules' r) (fun r _ hr => ih hr) (fun _ _ => hgrows)
      fun _ _ => hsilent
  -- A node sets the frame aside, on which the reports do not depend.
  | node k body next ihbody ihnext =>
    have hbody := ihbody (s := { s.drain with frame := #[] }) (h.congr rfl rfl)
    exact hbody.bind (fun r _ hr => ihnext (hr.congr rfl rfl)) (fun _ _ => hgrows)
      fun _ _ => hsilent
  | group body next ihbody ihnext =>
    have hbody := ihbody (s := { s.drain with frame := #[] }) (h.congr rfl rfl)
    exact hbody.bind (fun r _ hr => ihnext (hr.congr rfl rfl)) (fun _ _ => hgrows)
      fun _ _ => hsilent
  | wrap k body next ihbody ihnext =>
    exact (ihbody h).bind (fun r _ hr => ihnext (hr.congr rfl rfl)) (fun _ _ => hgrows)
      fun _ _ => hsilent
  -- The depths agree, so both runs enter the level or neither does.
  | deeper body next ihbody ihnext =>
    unfold Script.run
    rw [enter_strict]
    cases henter : s.enter g with
    | mk granted s₁ =>
      have h₁ := h.of_enter henter
      cases granted with
      | false => exact ihnext _ h₁
      | true =>
        exact (ihbody h₁).bind (fun r _ hr => ihnext _ (hr.congr rfl rfl)) (fun _ _ => hgrows)
          fun _ _ => hsilent
  | enclosed d construct ifEmpty body next ihbody ihnext =>
    have hspan : (s.skip g.strict).frontSpan g.strict = (s.skip g).frontSpan g := by
      rw [frontSpan, frontSpan, skip_rest, skip_rest]
      rfl
    intro r r' hr hr'
    obtain ⟨s₁, a, s₂, s₃, s₄, hopen, hbody, hclose, hempty, hr⟩ := run_enclosed_eq_ok_iff.mp hr
    obtain ⟨s₁', a', s₂', s₃', s₄', hopen', hbody', hclose', hempty', hr'⟩ :=
      run_enclosed_eq_ok_iff.mp hr'
    rw [hspan] at hempty'
    -- From each of the states in between, reports grow or stay as they are up to the end.
    have hextends₃ := (extends_lasting.closeEmpty hempty).trans (run_extends hextends hr)
    have hextends₂ := (extends_lasting.closeDelimiter hclose).trans hextends₃
    have hextends₁ := (run_extends hextends hbody).trans hextends₂
    have hlater₃ := (later_lasting.closeEmpty hempty').trans (run_later hlater hr')
    have hlater₂ := (later_lasting.closeDelimiter hclose').trans hlater₃
    -- The runs may part at the opener, in the body, at the closer, or at the check for emptiness.
    obtain ⟨rfl, h₁⟩ | hcut := h.forks_openDelimiter hrecovery d s₁ s₁' hopen hopen'
    · obtain ⟨heq, h₂⟩ | hcut := ihbody h₁ _ _ hbody hbody'
      · cases heq
        obtain ⟨rfl, h₃⟩ | hcut :=
          h₂.forks_closeDelimiter hrecovery d construct s₃ s₃' hclose hclose'
        · obtain ⟨rfl, h₄⟩ | hcut := h₃.forks_closeEmpty ifEmpty _ _ s₄ s₄' hempty hempty'
          · exact ihnext h₄ r r' hr hr'
          · obtain ⟨hhalted, hsame⟩ := hsilent hr' hcut.1
            exact .inr (hcut.trans (hgrows hr) hhalted hsame)
        · obtain ⟨hhalted, hsame⟩ := hlater₃.silent hcut.1
          exact .inr (hcut.trans hextends₃.1 hhalted hsame)
      · obtain ⟨hhalted, hsame⟩ := hlater₂.silent hcut.1
        exact .inr (hcut.trans hextends₂.1 hhalted hsame)
    · obtain ⟨hhalted₂, hsame₂⟩ := hsilent hbody' hcut.1
      obtain ⟨hhalted, hsame⟩ := hlater₂.silent hhalted₂
      exact .inr (hcut.trans hextends₁.1 hhalted (hsame.trans hsame₂))
  | call rule next ih =>
    exact (hrules rule s h).bind (fun r _ hr => ih r.1 hr) (fun _ _ => hgrows) fun _ _ => hsilent

/-- A rule with recovery and without. -/
theorem Rule.run_forks (hrecovery : g.recovery = true) (budget : Nat) :
    Rule.Forked (Rule.run g budget) (Rule.run g.strict budget) := by
  induction budget with
  | zero =>
    intro rule s _ r r' hr
    cases hr
  | succ budget ih =>
    intro rule s h
    exact Script.run_forks hrecovery ih (fun _ _ _ _ => Rule.run_extends)
      (fun _ _ _ _ => Rule.run_later) h

/-! ## Parses -/

/-- A parse that has read everything had a step for each token. -/
theorem Rule.run_program_funded {budget : Nat} {tokens : List Token} {steps : Option Nat} {a : Bool}
    {s : State} (h : Rule.program.run g budget (.initial tokens steps) = .ok (a, s))
    (hexhausted : s.exhausted = none) (hhalted : s.halted = false) :
    (State.initial tokens steps).Funded := by
  have hpaid := (Rule.run_later h).paid hexhausted
  obtain ⟨hrest, -⟩ := Rule.run_program_rest h hexhausted hhalted
  have hdistance : s.distance = 0 := by
    rw [State.distance, hrest]
    rfl
  refine ⟨rfl, fun n hn => ?_⟩
  rw [hn, hdistance] at hpaid
  cases hsteps : s.steps with
  | none =>
    rw [hsteps] at hpaid
    cases hpaid
  | some m =>
    simp only [hsteps, Option.map_some, Option.some.injEq] at hpaid
    omega

/-- There is a tree if nothing ran out and the parse did not halt. -/
theorem State.finish_eq_ok {source : String} {s : State} {p : Parsed}
    (h : s.finish source = .ok (.ok p)) :
    s.exhausted = none ∧ s.halted = false ∧ p.tree = .node .program s.frame.toList ∧
      p.diagnostics = s.diagnostics.toList := by
  unfold State.finish at h
  split at h
  · cases h
  · next hexhausted =>
    split at h
    · cases h
    · next hhalted =>
      dsimp only at h
      split at h
      · cases h
        exact ⟨hexhausted, by simpa using hhalted, rfl, rfl⟩
      · cases h

/-- A parse without recovery is one with recovery, cut at the first error.  There is a bound on the
    number of tokens perhaps, but none on the nesting. -/
theorem parse_strict {source : String} {steps : Option Nat} {p : Parsed}
    (h : parse ⟨true, steps, none⟩ source = .ok (.ok p)) :
    ((∀ d ∈ p.diagnostics, d.isError = false) → parse ⟨false, steps, none⟩ source = .ok (.ok p)) ∧
    ((∃ d ∈ p.diagnostics, d.isError = true) → ∃ before d after,
      p.diagnostics = before ++ d :: after ∧ (∀ x ∈ before, x.isError = false) ∧
        d.isError = true ∧
        parse ⟨false, steps, none⟩ source = .ok (.error (.failed (before ++ [d])))) := by
  -- Both runs of the program rule exist: a strict parse of a source never faults.
  obtain ⟨a, s, hrun, hfinish⟩ := parseLexed_eq_ok_iff.mp h
  obtain ⟨hexhausted, hhalted, -, hreports⟩ := State.finish_eq_ok hfinish
  obtain ⟨outcome, houtcome⟩ := parse_ok_of_strict (o := ⟨false, steps, none⟩) rfl source
  obtain ⟨a', s', hrun', hfinish'⟩ := parseLexed_eq_ok_iff.mp houtcome
  have hinitial : (State.initial (Token.lex source) steps).Errorless :=
    ⟨rfl, by simp [State.initial]⟩
  rw [hreports]
  obtain ⟨heq, herrorless⟩ | ⟨hhalted', ⟨after, hafter⟩, before, d, hcut, hbefore, hd⟩ :=
    Rule.run_forks rfl _ .program _ hinitial (a, s) (a', s') hrun hrun'
  -- Nothing was wrong, and the runs are the same.
  · cases heq
    rw [hfinish] at hfinish'
    cases hfinish'
    refine ⟨fun _ => houtcome, ?_⟩
    rintro ⟨d, hd, herror⟩
    rw [herrorless.reports d hd] at herror
    cases herror
  -- The strict run stopped at the first error of the other one.
  · have hfunded := Rule.run_program_funded hrun hexhausted hhalted
    have hexhausted' : s'.exhausted = none := (Rule.run_later hrun').funded rfl hfunded
    have hfailed : s'.finish source = .ok (.error (.failed (before ++ [d]))) := by
      rw [State.finish, hexhausted', hhalted', hcut]
      rfl
    rw [hfailed] at hfinish'
    cases hfinish'
    rw [← hafter, hcut]
    refine ⟨fun hnone => ?_, fun _ => ⟨before, d, after, by simp, hbefore, hd, houtcome⟩⟩
    have herror := hnone d (by simp)
    rw [hd] at herror
    cases herror

/-- A warning and two errors, with no step to spare. -/
theorem parse_strict_twoErrors : ∃ p, parse ⟨true, some 4, none⟩ ";)1)" = .ok (.ok p) ∧
    p.diagnostics.map (·.isError) = [false, true, true] ∧ ∃ before d after,
      p.diagnostics = before ++ d :: after ∧ (∀ x ∈ before, x.isError = false) ∧
        d.isError = true ∧
        parse ⟨false, some 4, none⟩ ";)1)" = .ok (.error (.failed (before ++ [d]))) := by
  have hparse : parse ⟨true, some 4, none⟩ ";)1)" = .ok (.ok
      ⟨.node .program [.leaf .semiColon ";", .node .error [.leaf .rParen ")"],
        .node .exprStmt [.node .literal [.leaf .number "1"]], .node .error [.leaf .rParen ")"]],
      [.ofProblem .redundantSemicolon ⟨0, 1, by decide⟩,
        { Diagnostic.ofProblem .expectedStatement ⟨1, 2, by decide⟩ with
          expected := some "a declaration or statement", found := some "`)`" },
        { Diagnostic.ofProblem .expectedStatement ⟨3, 4, by decide⟩ with
          expected := some "a declaration or statement", found := some "`)`" }]⟩) := by
    decide +kernel
  exact ⟨_, hparse, rfl,
    (parse_strict hparse).2 ⟨_, List.mem_cons_of_mem _ List.mem_cons_self, rfl⟩⟩

end ScriptTree
