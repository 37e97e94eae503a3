import ScriptTree.Proofs.Reports

/-!
# The ledger of reports

A parse drops a report if the last one was made at the same place, so no place is reported twice
unless what was reported is forgotten meanwhile.  `State.Ledger` is what holds of all reports on
record at any time; `State.Recalls` says that a report about the place where the parse stands is
remembered.  A report that a block is empty is remembered instead of what was reported before.  This
matters at the end of the source only (`State.Forgot`), since everywhere else the parse has gone on
past what it reported.

## Key results

- `State.Ledger.skip`, `State.Ledger.bump`: what is passed over or consumed
- `State.Ledger.reportAt_points`: one more report about the current token
- `State.Ledger.openDelimiter`, `State.Ledger.closeDelimiter`: what is between two delimiters
-/

namespace ScriptTree

/-! ## The ledger -/

namespace State

variable {g : Setting} {tokens : List Token} {s s' : State} {o : Nat}

/-- The reports so far. -/
def reports (s : State) : List Diagnostic := s.diagnostics.toList

/-- What holds of the reports so far, of the open delimiters and of what is to be read. -/
structure Ledger (g : Setting) (tokens : List Token) (s : State) : Prop where
  reads : g.Reads tokens
  rest : s.rest <:+ tokens
  running : s.halted = false
  consumedTo : ∀ n, s.consumedTo = some n → n ≤ g.sourceEnd
  openers : s.delimiters.Pairwise fun x y => y.2.start < x.2.start
  opened : ∀ x ∈ s.delimiters, s.Past g x.2.start
  sound : ∀ d ∈ s.reports, d.Sound g tokens
  pairs : s.reports.Pairwise (Diagnostic.Precedes g)
  within : ∀ d ∈ s.reports, ∀ x ∈ s.delimiters, d.Within x.2.start
  past : ∀ d ∈ s.reports, d.problem.isPointed = false → s.Past g d.span.start
  pointed : ∀ d ∈ s.reports, d.problem.isPointed = true →
    s.Past g d.span.start ∨ s.At g d.span.start
  ended : ∀ d ∈ s.reports, d.problem.isStructural = true → s.rest = []

/-- What was reported about the place where the parse stands is remembered. -/
structure Recalls (g : Setting) (s : State) : Prop where
  flagged : ∀ d ∈ s.reports, d.problem.isPointed = true → s.At g d.span.start →
    s.reported = some d.span.start
  ended : ∀ d ∈ s.reports, d.problem.isStructural = true → s.reported = some g.sourceEnd
  unwound : Diagnostic.Unwound s.reports

/-- At the end of the source, an empty block was reported last.  If a delimiter was reported to be
    unclosed before, it is the brace of that block. -/
structure Forgot (s : State) : Prop where
  rest : s.rest = []
  last : ∃ (ds : List Diagnostic) (e : Diagnostic), s.reports = ds ++ [e] ∧
    e.problem = .emptyBlock ∧ s.reported = some e.span.start ∧
    (∀ x ∈ s.delimiters, x.2.start < e.span.start) ∧
    (Diagnostic.Closed ds ∨ ∃ (before : List Diagnostic) (u : Diagnostic), ds = before ++ [u] ∧
      Diagnostic.Closed before ∧ u.problem = .unclosedBlock ∧ u.span.start = e.span.start)

/-- If there was a complaint about the next token that does not say what is missing, the token opens
    nothing. -/
def Clear (g : Setting) (s : State) : Prop :=
  ∀ d ∈ s.reports, d.problem.isPointed = true → d.problem.isRootCause = false →
    s.At g d.span.start → ∀ t, s.rest.head? = some t → t.kind.opens = none

/-- All that was reported is left behind, and no delimiter is reported to be unclosed. -/
structure Passed (g : Setting) (s : State) : Prop where
  past : ∀ d ∈ s.reports, s.Past g d.span.start
  closed : Diagnostic.Closed s.reports

/-- What is left behind need not be remembered. -/
theorem Passed.recalls (h : s.Passed g) : s.Recalls g where
  flagged d hd _ hat := absurd hat.1 (h.past d hd).ne_front
  ended d hd hp := by
    rw [h.closed d hd] at hp
    cases hp
  unwound := .inl h.closed

/-- Where all reports are left behind, the next token is clear. -/
theorem Passed.clear (h : s.Passed g) : s.Clear g :=
  fun d hd _ _ hat => absurd hat.1 (h.past d hd).ne_front

/-- The state keeps the books of another one: all that is on record is the same. -/
structure Keeps (s s' : State) : Prop where
  rest : s'.rest = s.rest
  delimiters : s'.delimiters = s.delimiters
  diagnostics : s'.diagnostics = s.diagnostics
  reported : s'.reported = s.reported
  halted : s'.halted = s.halted
  consumedTo : s'.consumedTo = s.consumedTo

namespace Keeps

variable (h : s.Keeps s')

include h

/-- An operation that keeps the record reports nothing. -/
theorem reports : s'.reports = s.reports := congrArg Array.toList h.diagnostics

/-- An offset is past on both sides of an operation that keeps the record. -/
private theorem past_iff : s'.Past g o ↔ s.Past g o := by rw [Past, Past, h.rest]

/-- An offset is that of the current token on both sides. -/
private theorem at_iff : s'.At g o ↔ s.At g o := by rw [At, At, frontSpan, frontSpan, h.rest]

/-- The ledger is kept. -/
theorem ledger (hs : s.Ledger g tokens) : s'.Ledger g tokens where
  reads := hs.reads
  rest := h.rest ▸ hs.rest
  running := h.halted ▸ hs.running
  consumedTo := h.consumedTo ▸ hs.consumedTo
  openers := h.delimiters ▸ hs.openers
  opened x hx := h.past_iff.mpr (hs.opened x (h.delimiters ▸ hx))
  sound := h.reports ▸ hs.sound
  pairs := h.reports ▸ hs.pairs
  within := by rw [h.reports, h.delimiters]; exact hs.within
  past d hd hp := h.past_iff.mpr (hs.past d (h.reports ▸ hd) hp)
  pointed d hd hp := by
    rw [h.past_iff, h.at_iff]
    exact hs.pointed d (h.reports ▸ hd) hp
  ended d hd hp := h.rest.trans (hs.ended d (h.reports ▸ hd) hp)

/-- What was reported last is still recalled. -/
theorem recalls (hs : s.Recalls g) : s'.Recalls g where
  flagged d hd hp hat := h.reported.trans (hs.flagged d (h.reports ▸ hd) hp (h.at_iff.mp hat))
  ended d hd hp := h.reported.trans (hs.ended d (h.reports ▸ hd) hp)
  unwound := h.reports ▸ hs.unwound

/-- What was forgotten stays forgotten. -/
theorem forgot (hs : s.Forgot) : s'.Forgot where
  rest := h.rest.trans hs.rest
  last := by
    rw [h.reports, h.reported, h.delimiters]
    exact hs.last

/-- The next token stays clear. -/
theorem clear (hs : s.Clear g) : s'.Clear g := by
  intro d hd hp hroot hat t ht
  rw [h.rest] at ht
  exact hs d (h.reports ▸ hd) hp hroot (h.at_iff.mp hat) t ht

/-- What was passed stays passed. -/
theorem passed (hs : s.Passed g) : s'.Passed g where
  past d hd := h.past_iff.mpr (hs.past d (h.reports ▸ hd))
  closed := h.reports ▸ hs.closed

end Keeps

/-! Most of what a parse does besides is not on record. -/

/-- The patience is not on record. -/
theorem keeps_withPatience (s : State) (p : Nat) : s.Keeps { s with patience := p } :=
  ⟨rfl, rfl, rfl, rfl, rfl, rfl⟩

/-- The frame is not on record. -/
theorem keeps_withFrame (s : State) (f : Array Tree) : s.Keeps { s with frame := f } :=
  ⟨rfl, rfl, rfl, rfl, rfl, rfl⟩

/-- Placing skipped tokens keeps the record. -/
theorem keeps_drain (s : State) : s.Keeps s.drain := ⟨rfl, rfl, rfl, rfl, rfl, rfl⟩

/-- The state in which a frame of its own is begun. -/
theorem keeps_emptied (s : State) : s.Keeps { s.drain with frame := #[] } :=
  ⟨rfl, rfl, rfl, rfl, rfl, rfl⟩

/-- Leaving a level keeps the record. -/
theorem keeps_leave (s : State) : s.Keeps s.leave := ⟨rfl, rfl, rfl, rfl, rfl, rfl⟩

/-- Asking for a level keeps the record. -/
theorem keeps_enter {b : Bool} (h : s.enter g = (b, s')) : s.Keeps s' := by
  obtain ⟨_, _, _, rfl⟩ := enter_eq h
  exact ⟨rfl, rfl, rfl, rfl, rfl, rfl⟩

/-! ## One more report -/

/-- A report is put behind the others. -/
@[simp] theorem reports_emit (d : Diagnostic) : (s.emit g d).reports = s.reports ++ [d] := by
  simp [reports, emit]

/-- What is on record was, or is new. -/
theorem mem_reports_emit {b d : Diagnostic} : b ∈ (s.emit g d).reports ↔ b ∈ s.reports ∨ b = d := by
  simp

/-- A report is dropped, or put on record together with its place. -/
theorem reportAt_eq (hrunning : s.halted = false) (o : Nat) (d : Diagnostic) :
    s.reported = some o ∧ s.reportAt g o d = s ∨
      s.reported ≠ some o ∧
        s.reportAt g o d = ({ s with reported := some o } : State).emit g d := by
  unfold reportAt
  rw [hrunning]
  by_cases h : s.reported = some o
  · exact .inl ⟨h, by simp [h]⟩
  · exact .inr ⟨h, by simp [h]⟩

/-- A report that may come last can be put on record. -/
theorem Ledger.push (h : s.Ledger g tokens) {d : Diagnostic} (hsound : d.Sound g tokens)
    (hpairs : ∀ b ∈ s.reports, b.Precedes g d) (hwithin : ∀ x ∈ s.delimiters, d.Within x.2.start)
    (hpast : d.problem.isPointed = false → s.Past g d.span.start)
    (hpointed : d.problem.isPointed = true → s.Past g d.span.start ∨ s.At g d.span.start)
    (hended : d.problem.isStructural = true → s.rest = []) (o : Option Nat) :
    (({ s with reported := o } : State).emit g d).Ledger g tokens := by
  -- A property of the old reports and of the new one is one of all.
  have hmem {P : Diagnostic → Prop} (hold : ∀ b ∈ s.reports, P b) (hnew : P d) :
      ∀ b ∈ (({ s with reported := o } : State).emit g d).reports, P b := by
    intro b hb
    obtain hb | rfl := mem_reports_emit.mp hb
    · exact hold b hb
    · exact hnew
  refine ⟨h.reads, h.rest, ?_, h.consumedTo, h.openers, h.opened, hmem h.sound hsound, ?_,
    hmem h.within hwithin, hmem h.past hpast, hmem h.pointed hpointed, hmem h.ended hended⟩
  · simp [emit, h.running, h.reads.recovery]
  · rw [reports_emit, List.pairwise_append]
    refine ⟨h.pairs, List.pairwise_singleton _ _, fun b hb a ha => ?_⟩
    rw [List.mem_singleton.mp ha]
    exact hpairs b hb

/-! ### Lexical errors -/

/-- What passing over one skipped token keeps, skipping keeps. -/
private theorem skip_induct {P : State → Prop} (hpass : ∀ (s : State) t ts, s.rest = t :: ts →
    t.kind.isSkipped = true → P s → P { s.pass g t with rest := ts }) (h : P s) :
    P (s.skip g) := by
  -- Only what is to be read changes, so the statement is about any rest.
  have hrest (s : State) (ts ts' : List Token) :
      ({ s with rest := ts' } : State).passAll g ts = s.passAll g ts := by
    rw [passAll_eq, passAll_eq]
  suffices hall : ∀ ts (s : State), s.rest = ts → P s → P (s.passAll g ts) from hall _ s rfl h
  intro ts
  induction ts with
  | nil =>
    intro s hs h
    rw [passAll, ← hs]
    exact h
  | cons t ts ih =>
    intro s hs h
    unfold passAll
    split
    case isTrue ht =>
      have hmore := ih _ rfl (hpass s t ts hs ht h)
      rwa [hrest] at hmore
    case isFalse => rw [← hs]; exact h

/-- A skipped token is passed over, and reported if it is a lexical error. -/
private theorem pass_cases (hrunning : s.halted = false) (t : Token) (ts : List Token) :
    ({ s with rest := ts } : State).Keeps { s.pass g t with rest := ts } ∨
      t.kind.isLexError = true ∧
        (({ s with rest := ts } : State).emit g t.lexDiagnostic).Keeps
          { s.pass g t with rest := ts } := by
  have hreported : (t.kind.isLexError && !s.halted) = t.kind.isLexError := by simp [hrunning]
  unfold pass
  rw [hreported]
  cases t.kind.isLexError with
  | false => exact .inl ⟨rfl, rfl, rfl, rfl, rfl, rfl⟩
  | true => exact .inr ⟨rfl, rfl, rfl, rfl, rfl, rfl, rfl⟩

/-- A token in front of the others is taken away. -/
private theorem Ledger.withRest (h : s.Ledger g tokens) {t : Token} {ts : List Token}
    (hrest : s.rest = t :: ts)
    (hat : ∀ d ∈ s.reports, s.At g d.span.start → ({ s with rest := ts } : State).Past g
      d.span.start) : ({ s with rest := ts } : State).Ledger g tokens := by
  -- What lies behind the token is still behind a shorter rest.
  have hsuffix : ts <:+ s.rest := by rw [hrest]; exact List.suffix_cons t ts
  have hpast {o : Nat} (ho : s.Past g o) : ({ s with rest := ts } : State).Past g o :=
    ho.of_suffix hsuffix
  refine ⟨h.reads, hsuffix.trans h.rest, h.running, h.consumedTo, h.openers,
    fun x hx => hpast (h.opened x hx), h.sound, h.pairs, h.within,
    fun d hd hp => hpast (h.past d hd hp), fun d hd hp => .inl ?_, fun d hd hp => ?_⟩
  · exact (h.pointed d hd hp).elim hpast (hat d hd)
  · have hnil := h.ended d hd hp
    rw [hrest] at hnil
    cases hnil

/-- A token that is passed over is past from then on. -/
private theorem Ledger.past_head (h : s.Ledger g tokens) {t : Token} {ts : List Token}
    (hrest : s.rest = t :: ts) : ({ s with rest := ts } : State).Past g t.start := by
  have hsorted := h.reads.sorted.sublist h.rest.sublist
  rw [hrest] at hsorted
  refine ⟨h.reads.bounded t (h.rest.subset ?_), (List.pairwise_cons.mp hsorted).1⟩
  rw [hrest]
  exact List.mem_cons_self

/-- Passing over a skipped token. -/
theorem Ledger.pass (h : s.Ledger g tokens) {t : Token} {ts : List Token} (hrest : s.rest = t :: ts)
    (ht : t.kind.isSkipped = true) : ({ s.pass g t with rest := ts } : State).Ledger g tokens := by
  -- The token is skipped, so no report can be about it as the one ahead.
  have hnot {o : Nat} (hat : s.At g o) : False := by
    have hsig := hat.2 t (by rw [hrest]; rfl)
    rw [ht] at hsig
    cases hsig
  have hpassed := h.withRest hrest fun d _ hat => (hnot hat).elim
  -- A token without an error changes nothing; one with an error is reported here.
  obtain hkeeps | ⟨hlex, hkeeps⟩ := pass_cases h.running t ts
  · exact hkeeps.ledger hpassed
  refine hkeeps.ledger ?_
  have hlexical : t.lexDiagnostic.problem.isLexical = true := t.isLexical_lexDiagnostic
  have hunpointed := Problem.isPointed_eq_false_of_isLexical hlexical
  have hclosed := Problem.isStructural_of_isLexical hlexical
  have hregion : t.lexDiagnostic.region = t.lexDiagnostic.span := by
    rw [t.lexDiagnostic_region, t.lexDiagnostic_span]
  have hstart : t.lexDiagnostic.span.start = t.start := by rw [t.lexDiagnostic_span]; rfl
  have hmem : t ∈ s.rest := by rw [hrest]; exact List.mem_cons_self
  -- What was reported before starts before the token.
  have hbefore : ∀ b ∈ s.reports, b.span.start < t.lexDiagnostic.span.start := by
    intro b hb
    rw [hstart]
    cases hp : b.problem.isPointed with
    | false => exact (h.past b hb hp).2 t hmem
    | true => exact ((h.pointed b hb hp).resolve_right hnot).2 t hmem
  have hsound : t.lexDiagnostic.Sound g tokens := by
    refine ⟨?_, fun _ => hregion, fun hp => ?_, fun hp => ?_⟩
    · rw [t.lexDiagnostic_span]
      exact h.reads.stop_le t (h.rest.subset hmem)
    · rw [hunpointed] at hp
      cases hp
    · rw [hclosed] at hp
      cases hp
  -- The report starts behind all others and so is in order.
  refine hpassed.push hsound (fun b hb => .of_lt (hbefore b hb) hregion fun _ => hunpointed)
    (fun x hx => .of_lt ?_ hregion) (fun _ => ?_) (fun hp => ?_) (fun hp => ?_) s.reported
  · rw [hstart]
    exact (h.opened x hx).2 t hmem
  · rw [hstart]
    exact h.past_head hrest
  · rw [hunpointed] at hp
    cases hp
  · rw [hclosed] at hp
    cases hp

/-- Skipping keeps the ledger; the lexical errors on the way are reported in order. -/
theorem Ledger.skip (h : s.Ledger g tokens) : (s.skip g).Ledger g tokens :=
  skip_induct (P := fun s => s.Ledger g tokens) (fun _ _ _ hrest ht h => h.pass hrest ht) h

/-- While there is something to be read, no delimiter is reported to be unclosed. -/
theorem Ledger.closed (h : s.Ledger g tokens) (hrest : s.rest ≠ []) :
    Diagnostic.Closed s.reports := by
  intro d hd
  cases hp : d.problem.isStructural with
  | false => rfl
  | true => exact absurd (h.ended d hd hp) hrest

/-- Where a token is passed over, all reports are left behind. -/
private theorem Ledger.passed_pass (h : s.Ledger g tokens) {t : Token} {ts : List Token}
    (hrest : s.rest = t :: ts) (ht : t.kind.isSkipped = true) :
    ({ s.pass g t with rest := ts } : State).Passed g := by
  have hclosed : Diagnostic.Closed s.reports :=
    h.closed (by rw [hrest]; exact List.cons_ne_nil t ts)
  have hpast : ∀ d ∈ s.reports, ({ s with rest := ts } : State).Past g d.span.start := by
    intro d hd
    refine Past.of_suffix ?_ (by rw [hrest]; exact List.suffix_cons t ts)
    cases hp : d.problem.isPointed with
    | false => exact h.past d hd hp
    | true =>
      refine (h.pointed d hd hp).resolve_right fun hat => ?_
      have hsig := hat.2 t (by rw [hrest]; rfl)
      rw [ht] at hsig
      cases hsig
  obtain hkeeps | ⟨-, hkeeps⟩ := pass_cases h.running t ts
  · exact hkeeps.passed ⟨hpast, hclosed⟩
  -- The report of the token is lexical and at its start, which has been passed.
  refine hkeeps.passed ⟨fun d hd => ?_, fun d hd => ?_⟩
  · obtain hd | rfl := mem_reports_emit.mp hd
    · exact hpast d hd
    · rw [t.lexDiagnostic_span]
      exact h.past_head hrest
  · obtain hd | rfl := mem_reports_emit.mp hd
    · exact hclosed d hd
    · exact Problem.isStructural_of_isLexical t.isLexical_lexDiagnostic

/-- Skipping forgets nothing that was reported about the current token. -/
theorem Recalls.skip (hs : s.Recalls g) (h : s.Ledger g tokens) : (s.skip g).Recalls g := by
  refine (skip_induct (P := fun s => s.Ledger g tokens ∧ s.Recalls g) ?_ ⟨h, hs⟩).2
  rintro s t ts hrest ht ⟨h, -⟩
  exact ⟨h.pass hrest ht, (h.passed_pass hrest ht).recalls⟩

/-- Skipping keeps the next token clear. -/
theorem Clear.skip (hs : s.Clear g) (h : s.Ledger g tokens) : (s.skip g).Clear g := by
  refine (skip_induct (P := fun s => s.Ledger g tokens ∧ s.Clear g) ?_ ⟨h, hs⟩).2
  rintro s t ts hrest ht ⟨h, -⟩
  exact ⟨h.pass hrest ht, (h.passed_pass hrest ht).clear⟩

/-- At the end of the source there is nothing to skip. -/
theorem skip_of_nil (h : s.rest = []) : s.skip g = s := by
  unfold State.skip
  rw [h, passAll, ← h]

/-! ### Reports about the current token -/

/-- The report is about the current token, or about the end of the source. -/
structure Points (g : Setting) (s : State) (d : Diagnostic) : Prop where
  span : d.span = s.frontSpan g
  pointed : d.problem.isPointed = true
  region : d.region = d.span ∨ d.problem.isComplaint = true ∧ ∃ x, s.delimiters.head? = some x ∧
    d.region.start = x.2.start ∧ d.region.stop = g.sourceEnd

/-- The place where the parse stands may be reported, unless it was. -/
private theorem Ledger.past_of_recalls (h : s.Ledger g tokens) (hs : s.Recalls g)
    (hreported : s.reported ≠ some (s.frontSpan g).start) :
    ∀ d ∈ s.reports, s.Past g d.span.start ∧ d.problem.isStructural = false := by
  intro d hd
  cases hp : d.problem.isPointed with
  -- A pointed report at the front would have been remembered.
  | true =>
    refine ⟨(h.pointed d hd hp).resolve_right fun hat => hreported ?_,
      Problem.isStructural_eq_false_of_isPointed hp⟩
    rw [hs.flagged d hd hp hat, hat.1]
  | false =>
    refine ⟨h.past d hd hp, ?_⟩
    cases hstruct : d.problem.isStructural with
    | false => rfl
    | true =>
      -- A structural one at the front stands at the end of the input.
      have hend : (s.frontSpan g).start = g.sourceEnd := by
        simp [frontSpan, h.ended d hd hstruct, Span.point]
      exact absurd (hend ▸ hs.ended d hd hstruct) hreported

/-- The parse stands at a significant token, or at the end of the source. -/
theorem Ledger.frontSpan_cases (h : s.Ledger g tokens) (hat : s.At g o) :
    (s.frontSpan g).stop ≤ g.sourceEnd ∧
      ((∃ t ∈ Token.significant tokens, s.frontSpan g = t.span) ∨
        s.frontSpan g = .point g.sourceEnd) := by
  unfold frontSpan
  split
  · exact ⟨Nat.le_refl _, .inr rfl⟩
  · next t ts hrest =>
    have hmem : t ∈ tokens := h.rest.subset (by rw [hrest]; exact List.mem_cons_self)
    have ht : t.kind.isSkipped = false := hat.2 t (by rw [hrest]; rfl)
    exact ⟨h.reads.stop_le t hmem, .inl ⟨t, List.mem_filter.mpr ⟨hmem, by simp [ht]⟩, rfl⟩⟩

/-- The innermost delimiter was opened last. -/
private theorem Ledger.le_innermost (h : s.Ledger g tokens) {x y : Delimiter × Span}
    (hx : s.delimiters.head? = some x) (hy : y ∈ s.delimiters) : y.2.start ≤ x.2.start := by
  have hopeners := h.openers
  obtain ⟨ds, hds⟩ := List.head?_eq_some_iff.mp hx
  rw [hds] at hopeners hy
  obtain rfl | hy := List.mem_cons.mp hy
  · exact Nat.le_refl _
  · exact Nat.le_of_lt ((List.pairwise_cons.mp hopeners).1 y hy)

/-- A report that points at the current token has a sound place. -/
private theorem Ledger.sound_of_points (h : s.Ledger g tokens) (hat : s.At g (s.frontSpan g).start)
    {d : Diagnostic} (hd : s.Points g d) : d.Sound g tokens where
  span_stop := by
    rw [hd.span]
    exact (h.frontSpan_cases hat).1
  region hno := by
    obtain hregion | ⟨hyes, -⟩ := hd.region
    · exact hregion
    · rw [hyes] at hno
      cases hno
  pointed _ := by
    rw [hd.span]
    exact (h.frontSpan_cases hat).2
  structural hp := by
    rw [Problem.isStructural_eq_false_of_isPointed hd.pointed] at hp
    cases hp

/-- All that was reported is in front of the current token, or the place would be taken. -/
private theorem Ledger.precedes_of_points (h : s.Ledger g tokens) (hs : s.Recalls g)
    (hreported : s.reported ≠ some (s.frontSpan g).start) {b d : Diagnostic} (hd : s.Points g d)
    (hb : b ∈ s.reports) : b.Precedes g d := by
  obtain ⟨hpast, hclosed⟩ := h.past_of_recalls hs hreported b hb
  have hlt : b.span.start < d.span.start := by
    rw [hd.span]
    exact hpast.lt_front
  have hlast {P : Prop} (hstruct : b.problem.isStructural = true) : P := by
    rw [hclosed] at hstruct
    cases hstruct
  obtain hregion | ⟨-, x, hx, hregion, hend⟩ := hd.region
  · exact .of_lt hlt hregion hlast
  -- A region that starts in front of an earlier report starts at an opener that was open then.
  · refine ⟨fun _ _ => hlt, hlast, fun hin => ?_, fun heq => absurd heq.symm (Nat.ne_of_lt hlt)⟩
    rw [hregion] at hin ⊢
    exact ⟨(h.within b hb x (List.mem_of_head? hx)).region hin, .inr hend⟩

/-- A report that points at the current token lies within all open delimiters. -/
private theorem Ledger.within_of_points (h : s.Ledger g tokens) {d : Diagnostic} (hd : s.Points g d)
    {x : Delimiter × Span} (hx : x ∈ s.delimiters) : d.Within x.2.start := by
  have hlt : x.2.start < d.span.start := by
    rw [hd.span]
    exact (h.opened x hx).lt_front
  obtain hregion | ⟨-, y, hy, hregion, -⟩ := hd.region
  · exact .of_lt hlt hregion
  · refine ⟨fun _ => ?_, fun heq => absurd heq (Nat.ne_of_lt hlt)⟩
    rw [hregion]
    exact h.le_innermost hy hx

/-- A report about the current token can be put on record, unless the place was reported. -/
private theorem Ledger.push_points (h : s.Ledger g tokens) (hs : s.Recalls g)
    (hat : s.At g (s.frontSpan g).start) (hreported : s.reported ≠ some (s.frontSpan g).start)
    {d : Diagnostic} (hd : s.Points g d) (o : Option Nat) :
    (({ s with reported := o } : State).emit g d).Ledger g tokens := by
  refine h.push (h.sound_of_points hat hd)
    (fun b hb => h.precedes_of_points hs hreported hd hb) (fun x hx => h.within_of_points hd hx)
    (fun hp => ?_) (fun _ => .inr ?_) (fun hp => ?_) o
  · rw [hd.pointed] at hp
    cases hp
  · rw [hd.span]
    exact hat
  · rw [Problem.isStructural_eq_false_of_isPointed hd.pointed] at hp
    cases hp

/-- A report that points at the current token keeps the ledger, and is recalled. -/
theorem Ledger.reportAt_points (h : s.Ledger g tokens) (hs : s.Recalls g)
    (hat : s.At g (s.frontSpan g).start) {d : Diagnostic} (hd : s.Points g d) :
    (s.reportAt g (s.frontSpan g).start d).Ledger g tokens ∧
      (s.reportAt g (s.frontSpan g).start d).Recalls g := by
  obtain ⟨-, heq⟩ | ⟨hreported, heq⟩ := reportAt_eq (g := g) h.running (s.frontSpan g).start d
  · rw [heq]
    exact ⟨h, hs⟩
  rw [heq]
  refine ⟨h.push_points hs hat hreported hd _, ?_⟩
  -- Nothing was reported at the front, so all reports lie before it.
  have hbefore := h.past_of_recalls hs hreported
  have hclosed : Diagnostic.Closed (({ s with reported := some (s.frontSpan g).start } :
      State).emit g d).reports := by
    rw [reports_emit, Diagnostic.closed_append, Diagnostic.closed_singleton]
    exact ⟨fun b hb => (hbefore b hb).2, Problem.isStructural_eq_false_of_isPointed hd.pointed⟩
  refine ⟨fun b _ _ hb => congrArg some hb.1.symm, fun b hb hp => ?_, .inl hclosed⟩
  rw [hclosed b hb] at hp
  cases hp

/-- A report may be about a token that opens nothing. -/
theorem Clear.reportAt (hs : s.Clear g) {d : Diagnostic}
    (hd : d.problem.isPointed = true → d.problem.isRootCause = true ∨
      ∀ t, s.rest.head? = some t → t.kind.opens = none) (o : Nat) :
    (s.reportAt g o d).Clear g := by
  unfold State.reportAt
  split
  · exact hs
  intro b hb hp hroot hat t ht
  obtain hb | rfl := mem_reports_emit.mp hb
  · exact hs b hb hp hroot hat t ht
  · refine (hd hp).elim (fun h => ?_) fun h => h t ht
    rw [hroot] at h
    cases h

/-! ### Tokens -/

/-- Where the last token ended may be put down anew. -/
private theorem Ledger.withConsumedTo (h : s.Ledger g tokens) {n : Nat} (hn : n ≤ g.sourceEnd) :
    ({ s with consumedTo := some n } : State).Ledger g tokens :=
  ⟨h.reads, h.rest, h.running, fun _ hm => Option.some.inj hm ▸ hn, h.openers, h.opened, h.sound,
    h.pairs, h.within, h.past, h.pointed, h.ended⟩

/-- A token that is consumed leaves all reports behind. -/
theorem Ledger.consume (h : s.Ledger g tokens) {t : Token} {ts : List Token}
    (hrest : s.rest = t :: ts) :
    (s.consume t ts).Ledger g tokens ∧ (s.consume t ts).Passed g := by
  have hmem : t ∈ s.rest := by rw [hrest]; exact List.mem_cons_self
  have hhead : ({ s with rest := ts } : State).Past g t.start := h.past_head hrest
  -- Reports at the front are about the token, which has been passed afterwards.
  have hat : ∀ d ∈ s.reports, s.At g d.span.start →
      ({ s with rest := ts } : State).Past g d.span.start := by
    intro d _ hat
    have hstart : d.span.start = t.start := by rw [hat.1, frontSpan, hrest]; rfl
    rwa [hstart]
  have hkeeps : ({ s with rest := ts, consumedTo := some t.stop } : State).Keeps
      (s.consume t ts) := ⟨rfl, by simp, by simp, by simp, by simp, rfl⟩
  have hledger := (h.withRest hrest hat).withConsumedTo
    (h.reads.stop_le t (h.rest.subset hmem))
  have hpassed : ({ s with rest := ts, consumedTo := some t.stop } : State).Passed g := by
    refine ⟨fun d hd => ?_, h.closed (by rw [hrest]; exact List.cons_ne_nil t ts)⟩
    have hpast {o : Nat} (ho : s.Past g o) : ({ s with rest := ts } : State).Past g o :=
      ho.of_suffix (by rw [hrest]; exact List.suffix_cons t ts)
    cases hp : d.problem.isPointed with
    | false => exact hpast (h.past d hd hp)
    | true => exact (h.pointed d hd hp).elim hpast (hat d hd)
  exact ⟨hkeeps.ledger hledger, hkeeps.passed hpassed⟩

/-- Consuming a token keeps the ledger, and all reports are past then. -/
theorem Ledger.bump (h : s.Ledger g tokens) (hbump : s.bump g = .ok s') :
    s'.Ledger g tokens ∧ s'.Passed g := by
  obtain ⟨t, ts, hrest, rfl⟩ := bump_eq_ok_iff.mp hbump
  exact h.skip.consume hrest

/-! ### Delimiters -/

/-- An opener that has been consumed may be put on the stack. -/
private theorem Ledger.withOpener (h : s.Ledger g tokens) {x : Delimiter × Span}
    (hx : s.Past g x.2.start) (houter : ∀ y ∈ s.delimiters, y.2.start < x.2.start)
    (hwithin : ∀ d ∈ s.reports, d.Within x.2.start) :
    ({ s with delimiters := x :: s.delimiters } : State).Ledger g tokens := by
  refine ⟨h.reads, h.rest, h.running, h.consumedTo, List.pairwise_cons.mpr ⟨houter, h.openers⟩,
    ?_, h.sound, h.pairs, ?_, h.past, h.pointed, h.ended⟩
  -- The new opener encloses no report yet, and is open itself.
  · intro y hy
    obtain rfl | hy := List.mem_cons.mp hy
    · exact hx
    · exact h.opened y hy
  · intro d hd y hy
    obtain rfl | hy := List.mem_cons.mp hy
    · exact hwithin d hd
    · exact h.within d hd y hy

/-- The innermost delimiter may be taken from the stack. -/
theorem Ledger.withOuter (h : s.Ledger g tokens) {x : Delimiter × Span}
    {outer : List (Delimiter × Span)} (hopen : s.delimiters = x :: outer) :
    ({ s with delimiters := outer } : State).Ledger g tokens := by
  have hsub : ∀ y ∈ outer, y ∈ s.delimiters := by
    rw [hopen]
    exact fun y => List.mem_cons_of_mem x
  refine ⟨h.reads, h.rest, h.running, h.consumedTo, ?_, fun y hy => h.opened y (hsub y hy),
    h.sound, h.pairs, fun d hd y hy => h.within d hd y (hsub y hy), h.past, h.pointed, h.ended⟩
  have hopeners := h.openers
  rw [hopen] at hopeners
  exact (List.pairwise_cons.mp hopeners).2

/-- What was reported starts at the current token at the latest. -/
private theorem Ledger.le_front (h : s.Ledger g tokens) {b : Diagnostic} (hb : b ∈ s.reports) :
    b.span.start ≤ (s.frontSpan g).start := by
  cases hp : b.problem.isPointed with
  | false => exact Nat.le_of_lt (h.past b hb hp).lt_front
  | true =>
    obtain hpast | hat := h.pointed b hb hp
    · exact Nat.le_of_lt hpast.lt_front
    · exact Nat.le_of_eq hat.1

/-- If the current token is an opener, a complaint about it says that something is missing in front
    of it. -/
private theorem Ledger.within_front (h : s.Ledger g tokens) (hclear : s.Clear g) {t : Token}
    {ts : List Token} (hrest : s.rest = t :: ts) {d : Delimiter} (hopens : t.kind.opens = some d)
    {b : Diagnostic} (hb : b ∈ s.reports) : b.Within t.start := by
  -- A report at the front can only be a root cause, since the front was clear of others.
  have hfront : s.frontSpan g = t.span := by rw [frontSpan, hrest]
  have hle := h.le_front hb
  rw [hfront] at hle
  refine ⟨fun hlt => absurd hle (Nat.not_le_of_lt hlt), fun heq => .inl ?_⟩
  have hnot : ¬ s.Past g b.span.start := fun hpast => by
    rw [← heq] at hpast
    exact hpast.ne_front (by rw [hfront]; rfl)
  cases hp : b.problem.isPointed with
  | false => exact absurd (h.past b hb hp) hnot
  | true =>
    cases hroot : b.problem.isRootCause with
    | true => rfl
    | false =>
      have hat := (h.pointed b hb hp).resolve_left hnot
      have hnone := hclear b hb hp hroot hat t (by rw [hrest]; rfl)
      rw [hopens] at hnone
      cases hnone

/-- Opening a delimiter.  What was reported before starts at its opener at the latest. -/
theorem Ledger.openDelimiter (h : s.Ledger g tokens) (hclear : s.Clear g) {d : Delimiter}
    (hfirst : s.ahead[0]?.getD .error = d.opener) (hopen : s.openDelimiter g d = .ok s') :
    s'.Ledger g tokens ∧ s'.Passed g ∧
      s'.delimiters = (d, (s.skip g).frontSpan g) :: s.delimiters ∧
      ∀ b ∈ s'.reports, b.span.start ≤ ((s.skip g).frontSpan g).start := by
  -- The opener is consumed and joins the open delimiters.
  obtain ⟨t, ts, hrest, hs'⟩ := bump_eq_ok_iff.mp hopen
  rw [skip_withDelimiters, skip_skip] at hrest hs'
  have hrest : (s.skip g).rest = t :: ts := hrest
  have hfront : (s.skip g).frontSpan g = t.span := by rw [frontSpan, hrest]
  have ht : t.kind = d.opener := by
    rw [ahead_of_rest hrest] at hfirst
    exact hfirst
  have hskip := h.skip
  obtain ⟨hledger, hpassed⟩ := hskip.consume hrest
  have hle : ∀ b ∈ (s.skip g).reports, b.span.start ≤ t.start := by
    intro b hb
    have hle := hskip.le_front hb
    rwa [hfront] at hle
  have hopens : t.kind.opens = some d := by
    rw [ht]
    cases d <;> rfl
  have hwithin : ∀ b ∈ (s.skip g).reports, b.Within t.start :=
    fun b hb => hskip.within_front (hclear.skip h) hrest hopens hb
  have hreports : ((s.skip g).consume t ts).reports = (s.skip g).reports := by simp [reports]
  have hopened := hledger.withOpener (x := (d, t.span))
    ((hskip.past_head hrest).of_suffix (List.suffix_refl _))
    (fun y hy => (hskip.opened y (by simpa using hy)).2 t (by rw [hrest]; exact List.mem_cons_self))
    (by rw [hreports]; exact hwithin)
  -- The state that comes out differs in what the ledger does not read.
  have hkeeps : ({ (s.skip g).consume t ts with
      delimiters := (d, t.span) :: ((s.skip g).consume t ts).delimiters } : State).Keeps s' := by
    rw [hs', hfront]
    exact ⟨rfl, by simp, by simp, by simp, by simp, rfl⟩
  refine ⟨hkeeps.ledger hopened, hkeeps.passed ⟨hpassed.past, hpassed.closed⟩, ?_, ?_⟩
  · rw [hkeeps.delimiters, hfront]
    simp
  · rw [hkeeps.reports, hfront]
    show ∀ b ∈ ((s.skip g).consume t ts).reports, b.span.start ≤ t.start
    rw [hreports]
    exact hle

/-- A complaint is about the current token. -/
theorem points_of_region {d : Diagnostic} (hproblem : d.problem.isComplaint = true)
    (hspan : d.span = s.frontSpan g) (hregion : s.region g = some d.region) : s.Points g d := by
  refine ⟨hspan, Problem.isPointed_of_isComplaint hproblem, ?_⟩
  unfold State.region at hregion
  split at hregion
  · exact .inl (hspan ▸ (Option.some.inj hregion).symm)
  · next x rest hdelimiters =>
    obtain ⟨hstart, hstop⟩ := Span.make?_eq_some_iff.mp hregion
    exact .inr ⟨hproblem, _, by rw [hdelimiters]; rfl, hstart, hstop⟩

/-- A report that starts at an opener can be put on record while all that is open was opened before,
    and what was reported since was reported inside. -/
theorem Ledger.push_spanning (h : s.Ledger g tokens) {d : Diagnostic}
    (hspanning : d.problem.isSpanning = true) (hregion : d.region = d.span)
    (hstop : d.span.stop ≤ g.sourceEnd) (hpast : s.Past g d.span.start)
    (houter : ∀ x ∈ s.delimiters, x.2.start < d.span.start)
    (hwithin : ∀ b ∈ s.reports, b.Within d.span.start)
    (hinside : ∀ b ∈ s.reports, d.span.start < b.span.start →
      d.problem = .emptyBlock ∧ b.problem.isStray = true ∨ d.span.stop = g.sourceEnd)
    (hended : d.problem.isStructural = true → s.rest = [] ∧ d.span.stop = g.sourceEnd)
    (o : Option Nat) : (({ s with reported := o } : State).emit g d).Ledger g tokens := by
  have hunpointed := Problem.isPointed_eq_false_of_isSpanning hspanning
  have hpointed {P : Prop} (hp : d.problem.isPointed = true) : P := by
    rw [hunpointed] at hp
    cases hp
  refine h.push
    ⟨hstop, fun _ => hregion, hpointed, fun hp => (hended hp).2⟩
    (fun b hb => ⟨fun _ => hpointed, fun _ => hunpointed, fun hin => ?_, fun heq => ?_⟩)
    (fun x hx => .of_lt (houter x hx) hregion) (fun _ => hpast) hpointed
    (fun hp => (hended hp).1) o
  -- The region is what is shown, so it starts at the opener.
  · rw [hregion] at hin ⊢
    exact ⟨(hwithin b hb).region hin, hinside b hb hin⟩
  · exact ⟨hspanning, (hwithin b hb).opener heq⟩

/-- A delimiter that is open at the end of the source can be put on record as unclosed. -/
private theorem Ledger.push_unclosed (h : s.Ledger g tokens) {d : Delimiter} {opener : Span}
    {outer : List (Delimiter × Span)} (hopen : s.delimiters = (d, opener) :: outer)
    (hrest : s.rest = []) {dg : Diagnostic} (hproblem : dg.problem = d.unclosed)
    (hstart : dg.span.start = opener.start) (hstop : dg.span.stop = g.sourceEnd)
    (hregion : dg.region = dg.span) (o : Option Nat) :
    (({ s with delimiters := outer, reported := o } : State).emit g dg).Ledger g tokens := by
  have hstruct : dg.problem.isStructural = true := by rw [hproblem, d.isStructural_unclosed]
  have hmem : (d, opener) ∈ s.delimiters := by rw [hopen]; exact List.mem_cons_self
  -- The report spans from the opener that is closed, which all others enclose.
  have hopeners := h.openers
  rw [hopen] at hopeners
  refine (h.withOuter hopen).push_spanning (Problem.isSpanning_of_isStructural hstruct) hregion
    (Nat.le_of_eq hstop) ?_ ?_ ?_ (fun _ _ _ => .inr hstop) (fun _ => ⟨hrest, hstop⟩) o
  · rw [hstart]
    exact h.opened _ hmem
  · rw [hstart]
    exact (List.pairwise_cons.mp hopeners).1
  · rw [hstart]
    exact fun b hb => h.within b hb _ hmem

/-- Where it is forgotten that the end of the source was reported, it may be reported once more. -/
theorem Forgot.unwound (h : s.Forgot) {opener : Span} {outer : List (Delimiter × Span)}
    (hopen : s.delimiters = (.curly, opener) :: outer) {dg : Diagnostic}
    (hproblem : dg.problem = .unclosedBlock) (hstart : dg.span.start = opener.start) :
    Diagnostic.Unwound (s.reports ++ [dg]) := by
  obtain ⟨ds, e, hds, he, -, hdelimiters, hlast⟩ := h.last
  -- Either nothing was unclosed before, or the last one started further back.
  obtain hclosed | ⟨before, u, rfl, hclosed, hu, hstart'⟩ := hlast
  · have hnone : Diagnostic.Closed (ds ++ [e]) :=
      Diagnostic.closed_append.mpr ⟨hclosed, Diagnostic.closed_singleton.mpr (by rw [he]; rfl)⟩
    exact .inr (.inl ⟨ds ++ [e], dg, [], by rw [hds], hnone, Diagnostic.closed_nil⟩)
  · have hlt : opener.start < e.span.start :=
      hdelimiters (.curly, opener) (by rw [hopen]; exact List.mem_cons_self)
    refine .inr (.inr ⟨before, u, e, dg, ?_, hclosed, hu, he, hproblem, hstart', ?_⟩)
    · simp [hds]
    · rw [hstart, hstart']
      exact hlt

/-- At the end of the source, the innermost delimiter is reported to be unclosed unless the end was
    reported. -/
private theorem Ledger.reportAt_unclosed (h : s.Ledger g tokens) {d : Delimiter}
    (hs : s.Recalls g ∨ d = .curly ∧ s.Forgot) {opener : Span} {outer : List (Delimiter × Span)}
    (hopen : s.delimiters = (d, opener) :: outer) (hrest : s.rest = []) {dg : Diagnostic}
    (hproblem : dg.problem = d.unclosed) (hstart : dg.span.start = opener.start)
    (hstop : dg.span.stop = g.sourceEnd) (hregion : dg.region = dg.span) :
    (({ s with delimiters := outer } : State).reportAt g (s.frontSpan g).start dg).Ledger g tokens ∧
      (({ s with delimiters := outer } : State).reportAt g (s.frontSpan g).start dg).Recalls g := by
  have hfront : (s.frontSpan g).start = g.sourceEnd := by simp [frontSpan, hrest, Span.point]
  -- The place was reported before, or the report is new.
  obtain ⟨hreported, heq⟩ | ⟨hreported, heq⟩ := reportAt_eq (g := g)
    (h.withOuter hopen).running (s.frontSpan g).start dg
  · rw [heq]
    refine ⟨h.withOuter hopen, ?_⟩
    obtain hs | ⟨-, hs⟩ := hs
    · exact ⟨hs.flagged, hs.ended, hs.unwound⟩
    -- What is remembered is the empty block, and not the end.
    · obtain ⟨ds, e, hds, he, hlast, -⟩ := hs.last
      have hpast := h.past e (by rw [hds]; simp) (by rw [he]; rfl)
      rw [hlast] at hreported
      exact absurd (Option.some.inj hreported) hpast.ne_front
  rw [heq]
  -- The report is the only structural one, or it follows the empty block.
  refine ⟨h.push_unclosed hopen hrest hproblem hstart hstop hregion _, fun b _ _ hb => ?_,
    fun b _ _ => ?_, ?_⟩
  · exact congrArg some hb.1.symm
  · exact congrArg some hfront
  · rw [reports_emit]
    obtain hs | ⟨rfl, hs⟩ := hs
    · have hbefore : Diagnostic.Closed s.reports :=
        fun b hb => (h.past_of_recalls hs hreported b hb).2
      exact .inr (.inl ⟨s.reports, dg, [], rfl, hbefore, Diagnostic.closed_nil⟩)
    · exact hs.unwound hopen hproblem hstart

/-- Closing a delimiter.  Braces may be closed where it is forgotten that the end of the source was
    reported. -/
theorem Ledger.closeDelimiter (h : s.Ledger g tokens) (hclear : s.Clear g) {d : Delimiter}
    (hs : s.Recalls g ∨ d = .curly ∧ s.Forgot) {construct : String} {opener : Span}
    {outer : List (Delimiter × Span)} (hopen : s.delimiters = (d, opener) :: outer)
    (hclose : s.closeDelimiter g d construct = .ok s') :
    s'.Ledger g tokens ∧ s'.Recalls g ∧ s'.Clear g := by
  -- The closer is consumed, or something is reported in its place.
  obtain ⟨p, hcases⟩ := closeDelimiter_report hopen hclose
  have hkeeps := keeps_withPatience (s.skip g) p
  have hskip := hkeeps.ledger h.skip
  have hopen' : ({ s.skip g with patience := p } : State).delimiters = (d, opener) :: outer := by
    rw [hkeeps.delimiters, skip_delimiters, hopen]
  obtain ⟨-, hbump⟩ | ⟨-, dg, rfl, hreport⟩ := hcases
  · obtain ⟨hledger, hpassed⟩ := (hskip.withOuter hopen').bump hbump
    exact ⟨hledger, hpassed.recalls, hpassed.clear⟩
  have hclear' : ({ s.skip g with delimiters := outer, patience := p } : State).Clear g :=
    hkeeps.clear (hclear.skip h)
  obtain ⟨hrest, hproblem, hstart, hstop, hregion, -⟩ |
    ⟨hrest, hproblem, hspan, hregion, -⟩ := hreport
  -- At the end of the source the delimiter is reported as unclosed.
  · have hunpointed : dg.problem.isPointed = false :=
      Problem.isPointed_eq_false_of_isSpanning
        (Problem.isSpanning_of_isStructural (by rw [hproblem, d.isStructural_unclosed]))
    have hs' : ({ s.skip g with patience := p } : State).Recalls g ∨
        d = .curly ∧ ({ s.skip g with patience := p } : State).Forgot := by
      refine hs.imp (fun hs => hkeeps.recalls (hs.skip h)) fun ⟨hd, hs⟩ => ⟨hd, hkeeps.forgot ?_⟩
      rw [skip_of_nil hs.rest]
      exact hs
    obtain ⟨hledger, hrecalls⟩ :=
      hskip.reportAt_unclosed hs' hopen' hrest hproblem hstart hstop hregion
    refine ⟨hledger, hrecalls, hclear'.reportAt (fun hp => ?_) _⟩
    rw [hunpointed] at hp
    cases hp
  -- Elsewhere the complaint is about the token that stands in place of the closer.
  · have hrecalls : s.Recalls g := by
      refine hs.resolve_right fun ⟨_, hs⟩ => hrest ?_
      rw [skip_of_nil hs.rest, hs.rest]
    have hcomplaint : dg.problem.isComplaint = true := by rw [hproblem]; rfl
    have hpoints : ({ s.skip g with delimiters := outer, patience := p } : State).Points g dg :=
      points_of_region hcomplaint hspan hregion
    have hrecalls' : ({ s.skip g with delimiters := outer, patience := p } : State).Recalls g :=
      ⟨(hrecalls.skip h).flagged, (hrecalls.skip h).ended, (hrecalls.skip h).unwound⟩
    obtain ⟨hledger, hrecalls''⟩ :=
      (hskip.withOuter hopen').reportAt_points hrecalls' (at_skip g s) hpoints
    exact ⟨hledger, hrecalls'', hclear'.reportAt (fun _ => .inl (by rw [hproblem]; rfl)) _⟩

end State

end ScriptTree
