import ScriptTree.Proofs.Bookkeeping

/-!
# Where reports come from

Each report is put together from places that the state holds: the current token, the openers on the
stack, the end of what was consumed last.  `Diagnostic.Located` says which tokens of the source it
goes back to, and `State.Traced` that all reports, openers and ends so far go back to tokens.
Lexical errors are reported when their tokens are passed over, each of them once, so those on record
and those ahead are always all of them.

Nothing of this needs recovery, but that no lexical error is left out.

## Key results

- `Rule.run_traced`: a run keeps track of where its reports come from
- `State.Traced.skip`, `State.Traced.bump`: the lexical errors on record and those ahead
-/

namespace ScriptTree

/-! ## Origins -/

namespace Diagnostic

/-- The places that a report shows, the primary one first. -/
def places (d : Diagnostic) : List Span := d.span :: d.related.map (·.span)

/-- The tokens that a report goes back to. -/
inductive Located (sourceEnd : Nat) (tokens : List Token) (d : Diagnostic) : Prop where
  /-- A token that is a lexical error. -/
  | lexical (t : Token) (ht : t ∈ tokens) (herror : t.kind.isLexError = true)
      (heq : d = t.lexDiagnostic)
  /-- The current token. -/
  | token (t : Token) (ht : t ∈ Token.significant tokens) (hproblem : d.problem.isPointed = true)
      (hplaces : d.places = [t.span])
  /-- The end of the source. -/
  | atEnd (hproblem : d.problem.isPointed = true) (hplaces : d.places = [.point sourceEnd])
  /-- All from an opener on, and the opener. -/
  | unclosed (delimiter : Delimiter) (t : Token) (ht : t ∈ Token.significant tokens)
      (hkind : t.kind = delimiter.opener) (hproblem : d.problem = delimiter.unclosed)
      (hstart : d.span.start = t.start) (hstop : d.span.stop = sourceEnd)
      (hrelated : d.related.map (·.span) = [t.span])
  /-- A block, from its brace to the token that was consumed last. -/
  | empty (t u : Token) (ht : t ∈ Token.significant tokens) (hu : u ∈ Token.significant tokens)
      (hkind : t.kind = .lCurly) (hproblem : d.problem = .emptyBlock)
      (hstart : d.span.start = t.start) (hstop : d.span.stop = u.stop) (hlt : t.start < u.stop)
      (hrelated : d.related = [])

/-- Reports of tokens are lexical, if the tokens are errors. -/
private theorem lexical_lexDiagnostics (ts : List Token) :
    lexical (Token.lexDiagnostics ts) = Token.lexDiagnostics ts := by
  refine List.filter_eq_self.mpr fun d hd => ?_
  obtain ⟨t, -, rfl⟩ := List.mem_map.mp hd
  exact Token.isLexical_lexDiagnostic t

end Diagnostic

/-- The tokens start one after the other, and none is empty. -/
structure Token.Laid (tokens : List Token) : Prop where
  sorted : tokens.Pairwise (·.start < ·.start)
  nonempty : ∀ t ∈ tokens, t.start < t.stop

namespace State

variable {g : Setting} {tokens : List Token} {s s' : State} {d : Delimiter}

/-- What passing over tokens reports are lexical errors among them. -/
private theorem mem_lexDiagnostics_of_passReports {halted : Bool} {ts : List Token} {r : Diagnostic}
    (h : r ∈ passReports g halted ts) : r ∈ Token.lexDiagnostics ts := by
  unfold passReports at h
  split at h
  · cases h
  · split at h
    · exact h
    · exact List.mem_of_mem_take h

/-- All that the state has kept of the source goes back to tokens. -/
structure Traced (g : Setting) (tokens : List Token) (s : State) : Prop where
  rest : s.rest <:+ tokens
  opened : ∀ x ∈ s.delimiters, ∃ t ∈ Token.significant tokens, t.kind = x.1.opener ∧ x.2 = t.span
  consumed : ∀ n, s.consumedTo = some n → ∃ t ∈ Token.significant tokens, n = t.stop
  located : ∀ r ∈ s.reports, r.Located g.sourceEnd tokens
  /-- No lexical error is left out unless a parse without recovery has halted. -/
  lexical : g.recovery = true → s.halted = false ∧
    Diagnostic.lexical s.reports ++ Token.lexDiagnostics s.rest = Token.lexDiagnostics tokens

/-- At the start there is nothing to trace. -/
theorem traced_initial (g : Setting) (tokens : List Token) (steps : Option Nat) :
    (State.initial tokens steps).Traced g tokens where
  rest := List.suffix_refl _
  opened := nofun
  consumed := nofun
  located := nofun
  lexical _ := ⟨rfl, rfl⟩

/-! ## Steps -/

/-- An operation that keeps the record keeps its places traced. -/
private theorem Keeps.traced (h : s.Keeps s') (hs : s.Traced g tokens) : s'.Traced g tokens where
  rest := h.rest ▸ hs.rest
  opened := h.delimiters ▸ hs.opened
  consumed := h.consumedTo ▸ hs.consumed
  located := h.reports ▸ hs.located
  lexical := by
    rw [h.halted, h.reports, h.rest]
    exact hs.lexical

/-- The lexical errors of some tokens are those of each in turn. -/
private theorem lexDiagnostics_append (ts us : List Token) :
    Token.lexDiagnostics (ts ++ us) = Token.lexDiagnostics ts ++ Token.lexDiagnostics us := by
  simp [Token.lexDiagnostics]

/-- The lexical errors that are passed over are on record. -/
theorem Traced.skip (h : s.Traced g tokens) : (s.skip g).Traced g tokens where
  rest := by
    rw [skip_rest]
    exact (List.dropWhile_suffix _).trans h.rest
  opened := by
    rw [skip_delimiters]
    exact h.opened
  consumed := by
    rw [skip_consumedTo]
    exact h.consumed
  located r hr := by
    -- The reports made while skipping are those of the tokens skipped.
    rw [reports, skip_eq] at hr
    simp only [Array.toList_append, List.mem_append] at hr
    obtain hr | hr := hr
    · exact h.located r hr
    obtain ⟨t, ht, rfl⟩ := List.mem_map.mp (mem_lexDiagnostics_of_passReports hr)
    obtain ⟨ht, herror⟩ := List.mem_filter.mp ht
    exact .lexical t (h.rest.subset ((List.takeWhile_prefix _).subset ht)) herror rfl
  lexical hrecovery := by
    -- Together with what is unread they are the lexical reports of the source.
    obtain ⟨hhalted, hlexical⟩ := h.lexical hrecovery
    rw [← hlexical, reports, reports, skip_eq]
    refine ⟨by simp [hhalted, hrecovery], ?_⟩
    have hsplit : Token.lexDiagnostics s.rest =
        Token.lexDiagnostics (s.rest.takeWhile (·.kind.isSkipped)) ++
          Token.lexDiagnostics (s.rest.dropWhile (·.kind.isSkipped)) := by
      rw [← lexDiagnostics_append, List.takeWhile_append_dropWhile]
    rw [hsplit, ← List.append_assoc]
    simp only [Array.toList_append, Diagnostic.lexical, List.filter_append, passReports, hhalted,
      hrecovery, Bool.false_eq_true, ↓reduceIte]
    rw [← Diagnostic.lexical, ← Diagnostic.lexical, Diagnostic.lexical_lexDiagnostics]

/-- The token at the front is one of the source, and the grammar sees it. -/
theorem Traced.mem_significant (h : s.Traced g tokens) {t : Token} {ts : List Token}
    (hrest : (s.skip g).rest = t :: ts) : t ∈ Token.significant tokens := by
  refine List.mem_filter.mpr ⟨h.skip.rest.subset (by rw [hrest]; exact List.mem_cons_self), ?_⟩
  rw [Token.isSkipped_of_dropWhile (skip_rest ▸ hrest)]
  rfl

/-- Consuming a token keeps the places traced. -/
theorem Traced.bump (h : s.Traced g tokens) (hbump : s.bump g = .ok s') : s'.Traced g tokens := by
  obtain ⟨t, ts, hrest, rfl⟩ := bump_eq_ok_iff.mp hbump
  have hskip := h.skip
  have hmem := h.mem_significant hrest
  have hreports : ((s.skip g).consume t ts).reports = (s.skip g).reports := by simp [reports]
  refine ⟨?_, ?_, ?_, ?_, fun hrecovery => ?_⟩
  · exact ((List.suffix_cons t ts).trans (hrest ▸ List.suffix_refl _)).trans hskip.rest
  · rw [consume_delimiters]
    exact hskip.opened
  · rintro n hn
    cases hn
    exact ⟨t, hmem, rfl⟩
  · rw [hreports]
    exact hskip.located
  -- A token consumed has no lexical error.
  · obtain ⟨hhalted, hlexical⟩ := hskip.lexical hrecovery
    refine ⟨by rw [consume_halted, hhalted], ?_⟩
    have ht : t.kind.isLexError = false := by
      have hskipped := (List.mem_filter.mp hmem).2
      simp only [Kind.isSkipped, Bool.not_or, Bool.and_eq_true, Bool.not_eq_true'] at hskipped
      exact hskipped.2
    rw [hreports, consume_rest, ← hlexical, hrest]
    simp [Token.lexDiagnostics, ht]

/-- A report of the grammar is put on record. -/
theorem Traced.reportAt (h : s.Traced g tokens) {r : Diagnostic}
    (hr : r.Located g.sourceEnd tokens) (hlexical : r.problem.isLexical = false) (o : Nat) :
    (s.reportAt g o r).Traced g tokens := by
  refine ⟨by rw [reportAt_rest]; exact h.rest, by rw [reportAt_delimiters]; exact h.opened,
    by rw [reportAt_consumedTo]; exact h.consumed, fun r' hr' => ?_, fun hrecovery => ?_⟩
  -- The reports of before are located, and so is the new one.
  · unfold State.reportAt at hr'
    split at hr'
    · exact h.located r' hr'
    · obtain hr' | rfl := mem_reports_emit.mp hr'
      · exact h.located r' hr'
      · exact hr
  · obtain ⟨hhalted, heq⟩ := h.lexical hrecovery
    rw [reportAt_rest]
    obtain ⟨-, hsame⟩ | ⟨-, hsame⟩ := reportAt_eq (g := g) hhalted o r
    · rw [hsame]
      exact ⟨hhalted, heq⟩
    · rw [hsame, reports_emit, Diagnostic.lexical, List.filter_append]
      refine ⟨by simp [emit, hhalted, hrecovery], ?_⟩
      rw [List.filter_cons_of_neg (by simp [hlexical]), List.filter_nil, List.append_nil]
      exact heq

/-- A report about the current token goes back to it. -/
private theorem Traced.located_front (h : s.Traced g tokens) {r : Diagnostic}
    (hproblem : r.problem.isPointed = true) (hspan : r.span = (s.skip g).frontSpan g)
    (hrelated : r.related = []) : r.Located g.sourceEnd tokens := by
  have hplaces : r.places = [(s.skip g).frontSpan g] := by
    rw [Diagnostic.places, hspan, hrelated]
    rfl
  cases hrest : (s.skip g).rest with
  | nil => exact .atEnd hproblem (by rw [hplaces, frontSpan, hrest])
  | cons t ts =>
    exact .token t (h.mem_significant hrest) hproblem (by rw [hplaces, frontSpan, hrest])

/-- A complaint is at the current token, or at the end of the source. -/
theorem Traced.complain (h : s.Traced g tokens) {x : Complaint}
    (hx : x.problem.isComplaint = true) (hcomplain : s.complain g x = .ok s') :
    s'.Traced g tokens := by
  obtain ⟨p, r, rfl, hproblem, hspan, -, hrelated⟩ := complain_report hcomplain
  have hpointed : r.problem.isPointed = true :=
    hproblem ▸ Problem.isPointed_of_isComplaint hx
  exact ((keeps_withPatience (s.skip g) p).traced h.skip).reportAt
    (h.located_front hpointed hspan hrelated) (Problem.isLexical_eq_false_of_isPointed hpointed) _

/-- A warning is at the current token, or at the end of the source. -/
theorem Traced.remark (h : s.Traced g tokens) {problem : Problem}
    (hproblem : problem.isPointed = true) : (s.remark g problem).Traced g tokens :=
  h.skip.reportAt (h.located_front hproblem rfl rfl)
    (Problem.isLexical_eq_false_of_isPointed hproblem) _

/-! ## Delimiters -/

/-- The opener of a delimiter was consumed last, and it is the innermost one. -/
theorem Traced.openDelimiter (h : s.Traced g tokens) (hfirst : s.ahead[0]?.getD .error = d.opener)
    (hopen : s.openDelimiter g d = .ok s') :
    s'.Traced g tokens ∧ ∃ t ts, (s.skip g).rest = t :: ts ∧ t ∈ Token.significant tokens ∧
      t.kind = d.opener ∧ (s.skip g).frontSpan g = t.span ∧ s'.consumedTo = some t.stop ∧
      s'.rest = ts ∧ s'.delimiters = (d, t.span) :: s.delimiters := by
  obtain ⟨t, ts, hrest, rfl⟩ := bump_eq_ok_iff.mp hopen
  rw [skip_withDelimiters, skip_skip] at hrest
  have hrest : (s.skip g).rest = t :: ts := hrest
  have hfront : (s.skip g).frontSpan g = t.span := by rw [frontSpan, hrest]
  have hkind : t.kind = d.opener := by
    rw [ahead_of_rest hrest] at hfirst
    exact hfirst
  have hmem := h.mem_significant hrest
  -- The opener is recorded with the place of its token.
  have hopened : ({ s.skip g with delimiters := (d, t.span) :: (s.skip g).delimiters } :
      State).Traced g tokens := by
    refine { h.skip with opened := fun x hx => ?_ }
    obtain rfl | hx := List.mem_cons.mp hx
    · exact ⟨t, hmem, hkind, rfl⟩
    · exact h.skip.opened x hx
  refine ⟨hopened.bump ?_, t, ts, hrest, hmem, hkind, hfront, rfl, rfl, ?_⟩
  · rw [← hfront]
    exact hopen
  · rw [consume_delimiters, skip_delimiters]
    dsimp only
    rw [hfront, skip_delimiters]

/-- The report on an unclosed delimiter points at its opener and at where the closer is missing. -/
theorem Traced.closeDelimiter (h : s.Traced g tokens) {construct : String} {t : Token}
    {outer : List (Delimiter × Span)} (ht : t ∈ Token.significant tokens)
    (hkind : t.kind = d.opener) (hopen : s.delimiters = (d, t.span) :: outer)
    (hclose : s.closeDelimiter g d construct = .ok s') : s'.Traced g tokens := by
  obtain ⟨p, hcases⟩ := closeDelimiter_report hopen hclose
  have houter : ({ s.skip g with delimiters := outer, patience := p } : State).Traced g tokens := by
    refine { h.skip with opened := fun x hx => h.opened x ?_ }
    rw [hopen]
    exact List.mem_cons_of_mem _ hx
  obtain ⟨-, hbump⟩ | ⟨-, r, rfl, hreport⟩ := hcases
  · exact houter.bump hbump
  obtain ⟨-, hproblem, hstart, hstop, -, hrelated⟩ | ⟨-, hproblem, hspan, -, hrelated⟩ := hreport
  · refine houter.reportAt (.unclosed d t ht hkind hproblem hstart hstop hrelated) ?_ _
    rw [hproblem]
    cases d <;> rfl
  · have hpointed : r.problem.isPointed = true := by rw [hproblem]; rfl
    exact houter.reportAt (h.located_front hpointed hspan hrelated)
      (Problem.isLexical_eq_false_of_isPointed hpointed) _

/-- The report that a block is empty starts at its brace, and something was consumed since. -/
theorem Traced.closeEmpty (h : s.Traced g tokens) {ifEmpty : Option Problem} {answer : Bool}
    {t : Token} (hempty : ∀ problem ∈ ifEmpty, problem = .emptyBlock ∧ t.kind = .lCurly)
    (ht : t ∈ Token.significant tokens)
    (hconsumed : ∃ n, s.consumedTo = some n ∧ t.start + 1 ≤ n)
    (hclose : s.closeEmpty g ifEmpty answer t.span = .ok s') : s'.Traced g tokens := by
  obtain ⟨-, rfl⟩ | ⟨problem, hsome, -, hremark⟩ := closeEmpty_eq_ok_iff.mp hclose
  · exact h
  · obtain ⟨rfl, hkind⟩ := hempty problem hsome
    obtain ⟨r, rfl, hproblem, hstart, hstop, -, hrelated⟩ := remarkSince_report hremark
    obtain ⟨n, hn, hlt⟩ := hconsumed
    obtain ⟨u, hu, rfl⟩ := h.consumed n hn
    rw [hn, Option.getD_some] at hstop
    exact h.reportAt (.empty t u ht hu hkind hproblem hstart hstop hlt hrelated)
      (by rw [hproblem]; rfl) _

/-- What is between two delimiters, the report that it is empty included. -/
theorem Traced.enclosed (hlaid : Token.Laid tokens) (h : s.Traced g tokens) {construct : String}
    {ifEmpty : Option Problem} {answer : Bool} {s₁ s₂ s₃ : State}
    (hfirst : s.ahead[0]?.getD .error = d.opener)
    (hempty : ∀ problem ∈ ifEmpty, problem = .emptyBlock ∧ d = .curly)
    (hopen : s.openDelimiter g d = .ok s₁) (hlater : s₁.Later g s₂) (hs₂ : s₂.Traced g tokens)
    (hclose : s₂.closeDelimiter g d construct = .ok s₃)
    (hs' : s₃.closeEmpty g ifEmpty answer ((s.skip g).frontSpan g) = .ok s') :
    s'.Traced g tokens := by
  -- Where the opener stands, and that the delimiter on top is this one when the closer is due.
  obtain ⟨-, t, ts, hrest, ht, hkind, hfront, hconsumed, hts, hdelimiters⟩ :=
    h.openDelimiter hfirst hopen
  have hs₃ := hs₂.closeDelimiter ht hkind (hlater.delimiters.trans hdelimiters) hclose
  rw [hfront] at hs'
  refine hs₃.closeEmpty (fun problem hproblem => ?_) ht ?_ hs'
  · obtain ⟨rfl, rfl⟩ := hempty problem hproblem
    exact ⟨rfl, hkind⟩
  -- The brace has a width, and what is consumed behind it ends behind it.
  · have hsorted := hlaid.sorted.sublist h.skip.rest.sublist
    rw [hrest] at hsorted
    have hbehind : ∀ u ∈ s₁.rest, t.start + 1 ≤ u.start := by
      rw [hts]
      exact (List.pairwise_cons.mp hsorted).1
    have hwidth := hlaid.nonempty t (List.mem_filter.mp ht).1
    exact (later_lasting.closeDelimiter hclose).consumedTo_ge
      (hlater.consumedTo_ge ⟨t.stop, hconsumed, hwidth⟩ hbehind)
      fun u hu => hbehind u (hlater.rest.subset hu)

end State

/-! ## Runs -/

variable {g : Setting} {tokens : List Token}

/-- What a careful script relies on when it calls rules. -/
structure Rule.Tracing (g : Setting) (tokens : List Token) (rules : Rule → State → Reply) :
    Prop where
  later : ∀ rule s a s', rules rule s = .ok (a, s') → s.Later g s'
  traced : ∀ rule s a s', rules rule s = .ok (a, s') → s'.exhausted = none →
    s.Traced g tokens → s'.Traced g tokens

/-- From the state the script keeps track of where its reports come from, and what that shows of the
    outcome is what is claimed. -/
def Script.KeepsTrace (g : Setting) (tokens : List Token) (script : Script) (s : State)
    (goal : Bool → State → Prop) : Prop :=
  ∃ forgets forgot v, script.Careful forgets forgot v ∧ s.Traced g tokens ∧ s.Faces v ∧
    ∀ a s', s'.Traced g tokens → goal a s'

namespace Script.KeepsTrace

variable {script next body : Script} {s s' s₁ : State} {goal goal' : Bool → State → Prop}

/-- The trace may be kept for a weaker goal. -/
theorem mono (h : script.KeepsTrace g tokens s goal) (hgoal : ∀ a s', goal a s' → goal' a s') :
    script.KeepsTrace g tokens s goal' := by
  obtain ⟨forgets, forgot, v, hcareful, hs, hv, hshown⟩ := h
  exact ⟨forgets, forgot, v, hcareful, hs, hv, fun a s' hs' => hgoal a s' (hshown a s' hs')⟩

/-- A step that consumes nothing keeps the trace for what follows. -/
theorem step (hstep : Step g script s next s') (h : script.KeepsTrace g tokens s goal) :
    next.KeepsTrace g tokens s' goal := by
  obtain ⟨forgets, forgot, v, hcareful, hs, hv, hgoal⟩ := h
  -- Only complaints and remarks report something, and what they report is located.
  cases hstep with
  | look hlook =>
    have hs' : s'.Traced g tokens := by
      obtain ⟨-, -, rfl⟩ := State.look_eq_ok_iff.mp hlook
      exact (State.keeps_withPatience _ _).traced hs.skip
    exact ⟨forgets, _, _, hcareful _, hs', hv.look hlook, hgoal⟩
  | text | stopped => exact ⟨forgets, _, v, hcareful _, hs.skip, hv.skip, hgoal⟩
  | exhausted => exact ⟨forgets, _, v, hcareful _, hs, hv, hgoal⟩
  | flush =>
    exact ⟨forgets, _, v, hcareful, (State.keeps_drain _).traced hs.skip,
      hv.congr State.ahead_skip, hgoal⟩
  | complain hcomplain =>
    obtain ⟨-, hx, -, hnext⟩ := hcareful
    exact ⟨forgets, _, v, hnext, hs.complain hx hcomplain, hv.complain hcomplain, hgoal⟩
  | remark problem =>
    obtain ⟨-, rfl, -, hnext⟩ := hcareful
    exact ⟨forgets, _, v, hnext, hs.remark rfl, hv.remark _, hgoal⟩

/-- A token that is consumed keeps the trace for what follows. -/
theorem bump (hbump : s.bump g = .ok s') (h : (Script.bump next).KeepsTrace g tokens s goal) :
    next.KeepsTrace g tokens s' goal := by
  obtain ⟨forgets, forgot, v, hcareful, hs, -, hgoal⟩ := h
  exact ⟨forgets, _, none, hcareful, hs.bump hbump, s'.faces_none, hgoal⟩

/-- What becomes of the frame of a body is no matter of reports. -/
theorem bodied {forgets forgot forgot' : Bool} {v : Option Kind}
    (hinside : body.Careful forgot' forgot v) (hnext : next.Careful forgets forgot' none)
    (hs : s.Traced g tokens) (hv : s.Faces v) (hgoal : ∀ a s', s'.Traced g tokens → goal a s') :
    body.KeepsTrace g tokens s fun _ s₁ =>
      ∀ f, next.KeepsTrace g tokens { s₁ with frame := f } goal :=
  ⟨forgot', forgot, v, hinside, hs, hv, fun _ s₁ hs₁ f =>
    ⟨forgets, forgot', none, hnext, (State.keeps_withFrame s₁ f).traced hs₁, State.faces_none _,
      hgoal⟩⟩

/-- The body of a node keeps the trace, whatever the frame is. -/
theorem node {k : Kind} (h : (Script.node k body next).KeepsTrace g tokens s goal) :
    body.KeepsTrace g tokens { s.drain with frame := #[] } fun _ s₁ =>
      ∀ f, next.KeepsTrace g tokens { s₁ with frame := f } goal := by
  obtain ⟨forgets, forgot, v, ⟨forgot', hinside, hnext⟩, hs, hv, hgoal⟩ := h
  exact bodied hinside hnext ((State.keeps_emptied s).traced hs) (hv.congr rfl) hgoal

/-- The body of a group keeps the trace, whatever the frame is. -/
theorem group (h : (Script.group body next).KeepsTrace g tokens s goal) :
    body.KeepsTrace g tokens { s.drain with frame := #[] } fun _ s₁ =>
      ∀ f, next.KeepsTrace g tokens { s₁ with frame := f } goal := by
  obtain ⟨forgets, forgot, v, ⟨forgot', hinside, hnext⟩, hs, hv, hgoal⟩ := h
  exact bodied hinside hnext ((State.keeps_emptied s).traced hs) (hv.congr rfl) hgoal

/-- The body of what wraps keeps the trace, whatever the frame is. -/
theorem wrap {k : Kind} (h : (Script.wrap k body next).KeepsTrace g tokens s goal) :
    body.KeepsTrace g tokens s fun _ s₁ =>
      ∀ f, next.KeepsTrace g tokens { s₁ with frame := f } goal := by
  obtain ⟨forgets, forgot, v, ⟨forgot', hinside, hnext⟩, hs, hv, hgoal⟩ := h
  exact bodied hinside hnext hs hv hgoal

/-- On a level that was granted the trace is kept, and after it was left. -/
theorem granted {next : Bool → Script} (henter : s.enter g = (true, s₁))
    (h : (Script.deeper body next).KeepsTrace g tokens s goal) :
    body.KeepsTrace g tokens s₁ fun _ s₂ => (next true).KeepsTrace g tokens s₂.leave goal := by
  obtain ⟨forgets, forgot, v, ⟨forgot', hinside, hnext⟩, hs, hv, hgoal⟩ := h
  have hkeeps := State.keeps_enter henter
  exact ⟨forgot', forgot, v, hinside, hkeeps.traced hs, hv.congr (State.ahead_congr hkeeps.rest),
    fun _ s₂ hs₂ => ⟨forgets, forgot', none, hnext, (State.keeps_leave s₂).traced hs₂,
      State.faces_none _, hgoal⟩⟩

/-- Between the delimiters the trace is kept, with the opener on the stack. -/
theorem enclosed (hlaid : Token.Laid tokens) {d : Delimiter} {construct : String}
    {ifEmpty : Option Problem} (hopen : s.openDelimiter g d = .ok s₁)
    (h : (Script.enclosed d construct ifEmpty body next).KeepsTrace g tokens s goal) :
    body.KeepsTrace g tokens s₁ fun b s₂ => s₁.Later g s₂ → ∀ s₃ s₄,
      s₂.closeDelimiter g d construct = .ok s₃ →
        s₃.closeEmpty g ifEmpty b ((s.skip g).frontSpan g) = .ok s₄ →
          next.KeepsTrace g tokens s₄ goal := by
  obtain ⟨forgets, forgot, v, ⟨hfirst, hifEmpty, ⟨forgot', hinside, -⟩, hnext⟩, hs, hv, hgoal⟩ := h
  have hfirst := hv _ hfirst
  refine ⟨forgot', false, none, hinside, (hs.openDelimiter hfirst hopen).1, s₁.faces_none, ?_⟩
  intro b s₂ hs₂ hlater s₃ s₄ hclose hempty
  have hs₄ := hs.enclosed hlaid hfirst
    (fun problem hproblem => ⟨(hifEmpty problem hproblem).1, (hifEmpty problem hproblem).2.1⟩)
    hopen hlater hs₂ hclose hempty
  exact ⟨forgets, _, none, hnext, hs₄, s₄.faces_none, hgoal⟩

/-- A rule that was called keeps the trace for what follows, since all rules do. -/
theorem call {rules : Rule → State → Reply} (hrules : Rule.Tracing g tokens rules) {rule : Rule}
    {next : Bool → Script} {b : Bool} (hcall : rules rule s = .ok (b, s₁))
    (hexhausted : s₁.exhausted = none) (h : (Script.call rule next).KeepsTrace g tokens s goal) :
    (next b).KeepsTrace g tokens s₁ goal := by
  obtain ⟨forgets, forgot, v, ⟨-, hnext⟩, hs, -, hgoal⟩ := h
  exact ⟨forgets, _, none, hnext _, hrules.traced _ _ _ _ hcall hexhausted hs, s₁.faces_none, hgoal⟩

end Script.KeepsTrace

/-- The care of a script shows where its reports come from, unless a limit is met. -/
def Script.traceAnalysis (hlaid : Token.Laid tokens) {rules : Rule → State → Reply}
    (hrules : Rule.Tracing g tokens rules) : Script.Analysis g rules where
  Fine := KeepsTrace g tokens
  Last s := s.exhausted = none
  Before := State.Later g
  lasting := State.later_lasting
  before := hrules.later
  back hbefore := hbefore.exhausted
  outer hexhausted := hexhausted
  done := fun ⟨_, _, _, _, hs, _, hgoal⟩ => hgoal _ _ hs
  step hstep _ := .step hstep
  bump hbump _ := .bump hbump
  node h := h.node.mono fun _ _ hnext _ _ => hnext _
  group h := h.group.mono fun _ _ hnext _ _ => hnext _
  wrap h := h.wrap.mono fun _ _ hnext _ _ => hnext _
  refused henter hexhausted _ := absurd hexhausted (State.exhausted_of_enter henter)
  granted henter h := (h.granted henter).mono fun _ _ hnext _ _ => hnext
  enclosed hopen h := (h.enclosed hlaid hopen).mono fun _ _ hnext hbody s₃ s₄ hclose hempty _ =>
    hnext (run_later hrules.later hbody) s₃ s₄ hclose hempty
  call := .call hrules

/-- A careful script keeps track of where its reports come from, if the rules that it calls do. -/
theorem Script.run_traced (hlaid : Token.Laid tokens) {rules : Rule → State → Reply}
    (hrules : Rule.Tracing g tokens rules) {script : Script} {s s' : State}
    {a forgets forgot : Bool} {v : Option Kind} (hrun : script.run g rules s = .ok (a, s'))
    (hexhausted : s'.exhausted = none) (hs : s.Traced g tokens) (hv : s.Faces v)
    (hcareful : script.Careful forgets forgot v) : s'.Traced g tokens := by
  have hkeeps : script.KeepsTrace g tokens s fun _ s' => s'.Traced g tokens :=
    ⟨forgets, forgot, v, hcareful, hs, hv, fun _ _ hs' => hs'⟩
  exact run_sound (traceAnalysis hlaid hrules) hkeeps hrun hexhausted

/-- A run that no limit ends keeps track of where its reports come from. -/
theorem Rule.run_traced (hlaid : Token.Laid tokens) {budget : Nat} {rule : Rule} {s s' : State}
    {a : Bool} (hrun : rule.run g budget s = .ok (a, s')) (hexhausted : s'.exhausted = none)
    (hs : s.Traced g tokens) : s'.Traced g tokens := by
  induction budget generalizing rule s s' a with
  | zero => cases hrun
  | succ budget ih =>
    have hrules : Rule.Tracing g tokens fun rule => rule.run g budget :=
      { later := fun _ _ _ _ => Rule.run_later
        traced := fun _ _ _ _ hrun hexhausted hs => ih hrun hexhausted hs }
    exact Script.run_traced hlaid hrules hrun hexhausted hs (State.faces_none s) (Rule.careful rule)

end ScriptTree
