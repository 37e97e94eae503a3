import ScriptTree.Proofs.Analyses
import ScriptTree.Proofs.Ledger

/-!
# Keeping the ledger

A run keeps the ledger: each step does, and the rules complain only where what was reported is
remembered (`Rule.careful`).  What is special is a block that is empty and unclosed.  The report
that it is empty is made last, so that the end of the source may be reported once more; but then all
that remains to be done is to close the blocks outside.

## Key results

- `State.Ledger.enclosed`: what is between two delimiters, empty blocks included
- `Rule.run_tidy`: a run keeps the ledger
-/

namespace ScriptTree

variable {g : Setting} {tokens : List Token}

namespace State

variable {s s' : State} {forgot forgot' : Bool} {v : Option Kind}

/-- The reports are on record, and what was reported at the place where the parse stands is
    remembered, unless `forgot` says that it may not be. -/
structure Tidy (g : Setting) (tokens : List Token) (forgot : Bool) (s : State) : Prop where
  ledger : s.Ledger g tokens
  recalls : s.Recalls g ∨ forgot = true ∧ s.Forgot

/-- The next token is `v`, if that is known. -/
def Faces (s : State) (v : Option Kind) : Prop := ∀ k, v = some k → s.ahead[0]?.getD .error = k

/-- Where no token is claimed to be next, there is nothing to face. -/
theorem faces_none (s : State) : s.Faces none := fun _ hk => by cases hk

/-- What a state faces depends on the kinds ahead only. -/
theorem Faces.congr (h : s.Faces v) (hahead : s'.ahead = s.ahead) : s'.Faces v :=
  fun k hk => hahead ▸ h k hk

/-- A look at the next token tells which it is. -/
theorem Faces.look (h : s.Faces v) {n : Nat} {k : Kind} (hlook : s.look g n = .ok (k, s')) :
    s'.Faces (if n = 0 then some k else v) := by
  obtain ⟨hk, hahead, -⟩ := ahead_look hlook
  intro j hj
  split at hj
  · next hn =>
    cases hj
    rw [hahead, hk, hn]
  · rw [hahead]
    exact h j hj

/-- Skipping does not change what a state faces. -/
theorem Faces.skip (h : s.Faces v) : (s.skip g).Faces v := h.congr ahead_skip

/-- A complaint does not change what a state faces. -/
theorem Faces.complain (h : s.Faces v) {x : Complaint} (hcomplain : s.complain g x = .ok s') :
    s'.Faces v := by
  obtain ⟨p, d, rfl, -⟩ := complain_eq_ok hcomplain
  exact h.congr ((ahead_congr (reportAt_rest _ _)).trans ahead_skip)

/-- A warning does not change what a state faces. -/
theorem Faces.remark (h : s.Faces v) (problem : Problem) : (s.remark g problem).Faces v :=
  h.congr ((ahead_congr (reportAt_rest _ _)).trans ahead_skip)

/-- If what is known of the next token opens nothing, it does not. -/
private theorem Faces.opens_eq_none (h : s.Faces v) (hv : OpensNothing v) {t : Token}
    (ht : (s.skip g).rest.head? = some t) : t.kind.opens = none := by
  obtain ⟨k, hk, hopens⟩ := hv
  obtain ⟨ts, hrest⟩ := List.head?_eq_some_iff.mp ht
  have hahead := h k hk
  rw [ahead_of_rest hrest] at hahead
  rwa [show t.kind = k from hahead]

/-! ## Steps -/

/-- It does no harm to count as forgotten what is not. -/
theorem Tidy.mono (h : s.Tidy g tokens forgot) (hforgot : forgot = true → forgot' = true) :
    s.Tidy g tokens forgot' := ⟨h.ledger, h.recalls.imp_right (And.imp_left hforgot)⟩

/-- Where nothing may be forgotten, what was reported is remembered. -/
private theorem Tidy.remembers (h : s.Tidy g tokens false) : s.Recalls g :=
  h.recalls.resolve_right fun ⟨hf, _⟩ => by cases hf

/-- An operation that keeps the record keeps it tidy. -/
private theorem Keeps.tidy (hkeeps : s.Keeps s') (h : s.Tidy g tokens forgot) :
    s'.Tidy g tokens forgot :=
  ⟨hkeeps.ledger h.ledger, h.recalls.imp hkeeps.recalls (And.imp_right hkeeps.forgot)⟩

/-- The end of the source is all there is to be seen where it is forgotten. -/
theorem Tidy.skip (h : s.Tidy g tokens forgot) : (s.skip g).Tidy g tokens forgot := by
  refine ⟨h.ledger.skip, h.recalls.imp (·.skip h.ledger) fun ⟨hf, hforgot⟩ => ⟨hf, ?_⟩⟩
  rwa [skip_of_nil hforgot.rest]

/-- Consuming a token makes the record tidy, and the next token clear. -/
private theorem Ledger.tidy_bump (h : s.Ledger g tokens) (hbump : s.bump g = .ok s') :
    s'.Tidy g tokens false ∧ s'.Clear g := by
  obtain ⟨hledger, hpassed⟩ := h.bump hbump
  exact ⟨⟨hledger, .inl hpassed.recalls⟩, hpassed.clear⟩

/-- Where a token is seen ahead, the end of the source is not forgotten. -/
theorem Tidy.look (h : s.Tidy g tokens forgot) {n : Nat} {k : Kind}
    (hlook : s.look g n = .ok (k, s')) : s'.Tidy g tokens (forgot && k == .error) := by
  obtain ⟨-, hk, rfl⟩ := look_eq_ok_iff.mp hlook
  refine (keeps_withPatience _ _).tidy ⟨h.skip.ledger, h.skip.recalls.imp_right ?_⟩
  rintro ⟨hf, hforgot⟩
  have hnil : Token.significant s.rest = [] := by
    rw [← significant_dropWhile, ← skip_rest (g := g), hforgot.rest]
    rfl
  exact ⟨by simp [hf, hk, hnil], hforgot⟩

/-- Where the parse goes on, the end of the source is not forgotten. -/
theorem Tidy.stopped (h : s.Tidy g tokens forgot) :
    (s.skip g).Tidy g tokens (forgot && (s.skip g).isStopped) := by
  refine ⟨h.skip.ledger, h.skip.recalls.imp_right fun ⟨hf, hforgot⟩ => ⟨?_, hforgot⟩⟩
  simp [hf, isStopped, hforgot.rest]

/-- A complaint is put on record. -/
theorem Tidy.complain (h : s.Tidy g tokens false) {x : Complaint}
    (hx : x.problem.isComplaint = true) (hcomplain : s.complain g x = .ok s') :
    s'.Tidy g tokens false := by
  obtain ⟨p, d, rfl, hproblem, hspan, hregion, -⟩ := complain_report hcomplain
  have hkeeps := keeps_withPatience (s.skip g) p
  have hskip := hkeeps.tidy h.skip
  have hpoints : ({ s.skip g with patience := p } : State).Points g d :=
    points_of_region (hproblem ▸ hx) hspan hregion
  obtain ⟨hledger, hrecalls⟩ :=
    hskip.ledger.reportAt_points hskip.remembers (at_skip g s) hpoints
  exact ⟨hledger, .inl hrecalls⟩

/-- A complaint that says what is missing may be about an opener. -/
theorem Clear.complain (hs : s.Clear g) (h : s.Ledger g tokens) {x : Complaint}
    (hx : x.problem.isRootCause = true ∨ OpensNothing v) (hv : s.Faces v)
    (hcomplain : s.complain g x = .ok s') : s'.Clear g := by
  obtain ⟨p, d, rfl, hproblem, -⟩ := complain_report hcomplain
  have hskip : ({ s.skip g with patience := p } : State).Clear g :=
    (keeps_withPatience (s.skip g) p).clear (hs.skip h)
  refine hskip.reportAt (fun _ => hx.imp (fun hroot => ?_) fun hopens t ht => ?_) _
  · rwa [hproblem]
  · exact hv.opens_eq_none hopens ht

/-- A remark on a semicolon is put on record. -/
theorem Tidy.remark (h : s.Tidy g tokens false) {problem : Problem}
    (hproblem : problem.isPointed = true) : (s.remark g problem).Tidy g tokens false := by
  obtain ⟨hledger, hrecalls⟩ := h.skip.ledger.reportAt_points h.skip.remembers (at_skip g s)
    (d := .ofProblem problem ((s.skip g).frontSpan g)) ⟨rfl, hproblem, .inl rfl⟩
  exact ⟨hledger, .inl hrecalls⟩

/-- A warning about a token that opens nothing keeps that token clear. -/
theorem Clear.remark (hs : s.Clear g) (h : s.Ledger g tokens) {problem : Problem}
    (hv : s.Faces v) (hopens : OpensNothing v) : (s.remark g problem).Clear g :=
  (hs.skip h).reportAt (fun _ => .inr fun _ ht => hv.opens_eq_none hopens ht) _

/-! ## Empty blocks -/

/-- What was reported behind the opener is wrong between statements, and the opener is not closed
    yet. -/
structure Vacant (opener : Span) (s : State) : Prop where
  within : ∀ b ∈ s.reports, b.Within opener.start
  stray : ∀ b ∈ s.reports, opener.start < b.span.start → b.problem.isStray = true

/-- An empty block is closed, or the end of the source is reached and the block may be reported to
    be unclosed. -/
def Emptied (g : Setting) (opener : Span) (s : State) : Prop :=
  s.Passed g ∨ s.rest = [] ∧ (Diagnostic.Closed s.reports ∨
    ∃ (before : List Diagnostic) (u : Diagnostic), s.reports = before ++ [u] ∧
      Diagnostic.Closed before ∧ u.problem = .unclosedBlock ∧ u.span.start = opener.start)

/-- Before the statements of a block, nothing was reported behind its opener; what is wrong between
    statements is no matter of delimiters. -/
private theorem stray_of_strays {opener : Span} (hclosed : Diagnostic.Closed s.reports)
    (hle : ∀ b ∈ s.reports, b.span.start ≤ opener.start) (h : s.Strays s') :
    Diagnostic.Closed s'.reports ∧
      ∀ b ∈ s'.reports, opener.start < b.span.start → b.problem.isStray = true := by
  obtain ⟨ds, hds, hstray⟩ := h
  have hreports : s'.reports = s.reports ++ ds := hds
  rw [hreports]
  refine ⟨Diagnostic.closed_append.mpr ⟨hclosed, fun d hd => ?_⟩, fun d hd hlt => ?_⟩
  · exact Problem.isStructural_eq_false_of_isStray (hstray d hd)
  · exact (List.mem_append.mp hd).elim (fun hd => absurd (hle d hd) (Nat.not_le_of_lt hlt))
      (hstray d)

/-- Closing a block without statements. -/
private theorem Ledger.close_vacant (h : s.Ledger g tokens) {opener : Span}
    {outer : List (Delimiter × Span)} (hopen : s.delimiters = (.curly, opener) :: outer)
    (hclosed : Diagnostic.Closed (s.skip g).reports)
    (hstray : ∀ b ∈ (s.skip g).reports, opener.start < b.span.start → b.problem.isStray = true)
    (hend : (s.skip g).rest = [] ∨ s.ahead[0]?.getD .error = Kind.rCurly) {construct : String}
    (hclose : s.closeDelimiter g .curly construct = .ok s') :
    s'.Vacant opener ∧ s'.Emptied g opener := by
  have hopen' : (s.skip g).delimiters = (.curly, opener) :: outer := by rw [skip_delimiters, hopen]
  have hvacant : (s.skip g).Vacant opener :=
    ⟨fun b hb => h.skip.within b hb _ (by rw [hopen']; exact List.mem_cons_self), hstray⟩
  obtain ⟨p, hcases⟩ := closeDelimiter_report hopen hclose
  have hkeeps := keeps_withPatience (s.skip g) p
  have hledger := (hkeeps.ledger h.skip).withOuter (hkeeps.delimiters.trans hopen')
  obtain ⟨-, hbump⟩ | ⟨hk, dg, rfl, ⟨hrest, hproblem, hstart, -⟩ | ⟨hrest, -⟩⟩ := hcases
  -- The brace is there, and nothing is left to be skipped in front of it.
  · obtain ⟨t, ts, -, heq⟩ := bump_eq_ok_iff.mp hbump
    have hsame : ({ s.skip g with delimiters := outer, patience := p } : State).skip g = _ :=
      At.skip_eq (at_skip g s)
    have hreports : s'.reports = (s.skip g).reports := by
      rw [heq, hsame]
      simp [reports]
    exact ⟨⟨hreports ▸ hvacant.within, hreports ▸ hstray⟩, .inl (hledger.bump hbump).2⟩
  -- The source ends, and this may have been reported before.
  · obtain ⟨-, heq⟩ | ⟨-, heq⟩ := reportAt_eq (g := g) hledger.running
      ((s.skip g).frontSpan g).start dg
    · rw [heq]
      exact ⟨⟨hvacant.within, hstray⟩, .inr ⟨hrest, .inl hclosed⟩⟩
    rw [heq]
    refine ⟨⟨fun b hb => ?_, fun b hb hlt => ?_⟩,
      .inr ⟨hrest, .inr ⟨_, dg, reports_emit dg, hclosed, hproblem, hstart⟩⟩⟩
    -- The new report starts at the opener, and so is within itself and no stray.
    · obtain hb | rfl := mem_reports_emit.mp hb
      · exact hvacant.within b hb
      · exact ⟨fun hlt => absurd hstart.symm (Nat.ne_of_lt hlt),
          fun _ => .inr (by rw [hproblem]; rfl)⟩
    · obtain hb | rfl := mem_reports_emit.mp hb
      · exact hstray b hb hlt
      · exact absurd hstart.symm (Nat.ne_of_lt hlt)
  -- No statement ends the list in front of another token.
  · exact absurd (hend.resolve_right hk) hrest

/-- That a block is empty can be put on record. -/
private theorem Ledger.push_empty (h : s.Ledger g tokens) {opener : Span}
    (hvacant : s.Vacant opener)
    (hpast : s.Past g opener.start) (houter : ∀ x ∈ s.delimiters, x.2.start < opener.start)
    {e : Diagnostic} (hproblem : e.problem = .emptyBlock) (hstart : e.span.start = opener.start)
    (hstop : e.span.stop ≤ g.sourceEnd) (hregion : e.region = e.span) (o : Option Nat) :
    (({ s with reported := o } : State).emit g e).Ledger g tokens := by
  have hstruct : e.problem.isStructural = false := by rw [hproblem]; rfl
  refine h.push_spanning (by rw [hproblem]; rfl) hregion hstop (by rwa [hstart]) ?_ ?_ ?_
    (fun hp => ?_) o
  · rwa [hstart]
  · rw [hstart]
    exact hvacant.within
  · rw [hstart]
    exact fun b hb hlt => .inl ⟨hproblem, hvacant.stray b hb hlt⟩
  · rw [hstruct] at hp
    cases hp

/-- After the report that a block is empty, it is forgotten only at the end of the source what was
    reported before. -/
theorem Tidy.remarkSince (h : s.Tidy g tokens false) {opener : Span} (hvacant : s.Vacant opener)
    (hemptied : s.Emptied g opener) (hpast : s.Past g opener.start)
    (houter : ∀ x ∈ s.delimiters, x.2.start < opener.start) (hstop : opener.stop ≤ g.sourceEnd)
    (hremark : s.remarkSince g .emptyBlock opener = .ok s') : s'.Tidy g tokens true := by
  obtain ⟨e, rfl, hproblem, hstart, hstop', hregion, -⟩ := remarkSince_report hremark
  obtain ⟨-, heq⟩ | ⟨-, heq⟩ := reportAt_eq (g := g) h.ledger.running opener.start e
  · rw [heq]
    exact h.mono fun _ => rfl
  rw [heq]
  -- The block ends where the last token was consumed, which is not behind the source.
  have hend : e.span.stop ≤ g.sourceEnd := by
    rw [hstop']
    cases hconsumed : s.consumedTo with
    | none => exact hstop
    | some n => exact h.ledger.consumedTo n hconsumed
  refine ⟨h.ledger.push_empty hvacant hpast houter hproblem hstart hend hregion _, ?_⟩
  obtain hpassed | ⟨hrest, hclosed⟩ := hemptied
  -- Behind a closed block nothing is left to be remembered.
  · refine .inl (Passed.recalls ⟨fun d hd => ?_, ?_⟩)
    · obtain hd | rfl := mem_reports_emit.mp hd
      · exact hpassed.past d hd
      · rwa [hstart]
    · rw [reports_emit, Diagnostic.closed_append, Diagnostic.closed_singleton, hproblem]
      exact ⟨hpassed.closed, rfl⟩
  -- At the end of the source the empty block is the last report and covers the place.
  · refine .inr ⟨rfl, hrest, s.reports, e, reports_emit e, hproblem, by rw [hstart]; rfl,
      fun x hx => ?_, hclosed.imp_right ?_⟩
    · rw [hstart]
      exact houter x hx
    · rintro ⟨before, u, hu, hbefore, hproblem', hstart'⟩
      exact ⟨before, u, hu, hbefore, hproblem', hstart'.trans hstart.symm⟩

/-- What is known where a list of statements ends. -/
private theorem rest_of_end (hrunning : s.halted = false) (hexhausted : s.exhausted = none)
    (hend : s.isStopped = true ∨ s.ahead[0]?.getD .error = Kind.rCurly) :
    (s.skip g).rest = [] ∨ s.ahead[0]?.getD .error = Kind.rCurly := by
  refine hend.imp_left fun hstopped => ?_
  have hrest : s.rest = [] := by simpa [isStopped, hrunning, hexhausted] using hstopped
  rw [skip_of_nil hrest, hrest]

/-- What is between two delimiters, the report that it is empty included. -/
theorem Ledger.enclosed (h : s.Ledger g tokens) (hclear : s.Clear g) {d : Delimiter}
    {construct : String} {ifEmpty : Option Problem} {answer : Bool} {s₁ s₂ s₃ : State}
    (hfirst : s.ahead[0]?.getD .error = d.opener) (hopen : s.openDelimiter g d = .ok s₁)
    (hlater : s₁.Later g s₂) (hs₂ : s₂.Tidy g tokens forgot) (hclear₂ : s₂.Clear g)
    (hcurly : forgot = true → d = .curly)
    (hempty : ∀ problem ∈ ifEmpty, answer = false → problem = .emptyBlock ∧ d = .curly ∧
      s₁.Strays s₂ ∧ ((s₂.skip g).rest = [] ∨ s₂.ahead[0]?.getD .error = Kind.rCurly))
    (hclose : s₂.closeDelimiter g d construct = .ok s₃)
    (hs' : s₃.closeEmpty g ifEmpty answer ((s.skip g).frontSpan g) = .ok s') :
    s'.Tidy g tokens ifEmpty.isSome ∧ s'.Clear g := by
  -- The opener, the body and the closer, each with the ledger it leaves.
  obtain ⟨hledger₁, hpassed₁, hdelimiters₁, hle⟩ := h.openDelimiter hclear hfirst hopen
  have hdelimiters₂ := hlater.delimiters.trans hdelimiters₁
  have hs₂' : s₂.Recalls g ∨ d = .curly ∧ s₂.Forgot := hs₂.recalls.imp_right (And.imp_left hcurly)
  obtain ⟨hledger₃, hrecalls₃, hclear₃⟩ :=
    hs₂.ledger.closeDelimiter hclear₂ hs₂' hdelimiters₂ hclose
  have hs₃ : s₃.Tidy g tokens false := ⟨hledger₃, .inl hrecalls₃⟩
  obtain ⟨-, rfl⟩ | ⟨problem, rfl, rfl, hremark⟩ := closeEmpty_eq_ok_iff.mp hs'
  -- A block that may be empty, or is not, adds no report.
  · exact ⟨hs₃.mono (fun hf => by cases hf), hclear₃⟩
  -- An empty block had strays only, which are reported within it.
  · obtain ⟨rfl, rfl, hstrays, hend⟩ := hempty problem rfl rfl
    obtain ⟨hclosed, hstray⟩ := stray_of_strays hpassed₁.closed hle
      (hstrays.trans (strays_skip g s₂))
    obtain ⟨hvacant, hemptied⟩ :=
      hs₂.ledger.close_vacant hdelimiters₂ hclosed hstray hend hclose
    have hlater₃ := later_lasting.closeDelimiter hclose
    have hdelimiters₃ : s₃.delimiters = s.delimiters := by
      rw [hlater₃.delimiters, hdelimiters₂, List.tail_cons]
    have hpast : s₃.Past g ((s.skip g).frontSpan g).start :=
      (hs₂.ledger.opened _ (by rw [hdelimiters₂]; exact List.mem_cons_self)).of_suffix hlater₃.rest
    have houter : ∀ x ∈ s₃.delimiters, x.2.start < ((s.skip g).frontSpan g).start := by
      have hopeners := hledger₁.openers
      rw [hdelimiters₁] at hopeners
      rw [hdelimiters₃]
      exact (List.pairwise_cons.mp hopeners).1
    have hstop := (h.skip.frontSpan_cases (at_skip g s)).1
    refine ⟨hs₃.remarkSince hvacant hemptied hpast houter hstop hremark, ?_⟩
    -- The report of an empty block is not pointed.
    obtain ⟨e, rfl, hproblem, -⟩ := remarkSince_report hremark
    refine hclear₃.reportAt (fun hp => ?_) _
    rw [hproblem] at hp
    cases hp

end State

/-! ## Runs -/

/-- What a careful script relies on when it calls rules.  Of these, only lists of statements are
    asked whether they are empty.  -/
structure Rule.Keeping (g : Setting) (tokens : List Token) (rules : Rule → State → Reply) :
    Prop where
  later : ∀ rule s a s', rules rule s = .ok (a, s') → s.Later g s'
  tidy : ∀ rule s a s', rules rule s = .ok (a, s') → s'.exhausted = none →
    s.Tidy g tokens rule.bears → s.Clear g → s'.Tidy g tokens rule.forgets ∧ s'.Clear g
  ends : ∀ s a s', rules (.statements false) s = .ok (a, s') →
    s'.isStopped = true ∨ s'.ahead[0]?.getD .error = Kind.rCurly
  strays : ∀ s s', rules (.statements false) s = .ok (false, s') → s.Strays s'

/-- From the state the script keeps the ledger, and what that shows of the outcome is what is
    claimed.  A complaint about an opener may stand in front of the script if it consumes that. -/
def Script.KeepsLedger (g : Setting) (tokens : List Token) (script : Script) (s : State)
    (goal : Bool → State → Prop) : Prop :=
  ∃ forgets forgot v, script.Careful forgets forgot v ∧ s.Tidy g tokens forgot ∧
    (s.Clear g ∨ script.isBump = true) ∧ s.Faces v ∧
      ∀ a s', s'.Tidy g tokens forgets → s'.Clear g → goal a s'

namespace Script.KeepsLedger

variable {script next body : Script} {s s' s₁ : State} {forgets forgot : Bool} {v : Option Kind}
  {goal goal' : Bool → State → Prop}

/-- The record may be kept for a weaker goal. -/
theorem mono (h : script.KeepsLedger g tokens s goal) (hgoal : ∀ a s', goal a s' → goal' a s') :
    script.KeepsLedger g tokens s goal' := by
  obtain ⟨forgets, forgot, v, hcareful, hs, hclear, hv, hshown⟩ := h
  exact ⟨forgets, forgot, v, hcareful, hs, hclear, hv, fun a s' hs' hclear' =>
    hgoal a s' (hshown a s' hs' hclear')⟩

/-- A careful script keeps the record tidy and the next token clear. -/
private theorem of_clear (hcareful : script.Careful forgets forgot v) (hs : s.Tidy g tokens forgot)
    (hclear : s.Clear g) (hv : s.Faces v)
    (hgoal : ∀ a s', s'.Tidy g tokens forgets → s'.Clear g → goal a s') :
    script.KeepsLedger g tokens s goal :=
  ⟨forgets, forgot, v, hcareful, hs, .inl hclear, hv, hgoal⟩

/-- Only a script that consumes the next token may begin after a complaint about an opener. -/
theorem clear (h : script.KeepsLedger g tokens s goal) (hbump : script.isBump = false) :
    ∃ forgets forgot v, script.Careful forgets forgot v ∧ s.Tidy g tokens forgot ∧ s.Clear g ∧
      s.Faces v ∧ ∀ a s', s'.Tidy g tokens forgets → s'.Clear g → goal a s' := by
  obtain ⟨forgets, forgot, v, hcareful, hs, hclear, hv, hgoal⟩ := h
  exact ⟨forgets, forgot, v, hcareful, hs, hclear.resolve_right (by simp [hbump]), hv, hgoal⟩

/-- A complaint keeps the record for what follows, since nothing is forgotten before it. -/
theorem complain {x : Complaint} (hcomplain : s.complain g x = .ok s')
    (h : (Script.complain x next).KeepsLedger g tokens s goal) :
    next.KeepsLedger g tokens s' goal := by
  obtain ⟨forgets, forgot, v, ⟨rfl, hx, habout, hcareful⟩, hs, hclear, hv, hgoal⟩ := h.clear rfl
  refine ⟨forgets, _, v, hcareful, hs.complain hx hcomplain, ?_, hv.complain hcomplain, hgoal⟩
  obtain hroot | hopens | hbump := habout
  · exact .inl (hclear.complain hs.ledger (.inl hroot) hv hcomplain)
  · exact .inl (hclear.complain hs.ledger (.inr hopens) hv hcomplain)
  · exact .inr hbump

/-- A step that consumes nothing keeps the record for what follows. -/
theorem step (hstep : Step g script s next s') (h : script.KeepsLedger g tokens s goal) :
    next.KeepsLedger g tokens s' goal := by
  -- Each step that reads nothing keeps the ledger and what is known of the tokens ahead.
  cases hstep with
  | complain hcomplain => exact h.complain hcomplain
  | look hlook =>
    obtain ⟨forgets, forgot, v, hcareful, hs, hclear, hv, hgoal⟩ := h.clear rfl
    have hclear' : s'.Clear g := by
      obtain ⟨-, -, rfl⟩ := State.look_eq_ok_iff.mp hlook
      exact (State.keeps_withPatience _ _).clear (hclear.skip hs.ledger)
    exact of_clear (hcareful _) (hs.look hlook) hclear' (hv.look hlook) hgoal
  | text =>
    obtain ⟨forgets, forgot, v, hcareful, hs, hclear, hv, hgoal⟩ := h.clear rfl
    exact of_clear (hcareful _) hs.skip (hclear.skip hs.ledger) hv.skip hgoal
  | stopped =>
    obtain ⟨forgets, forgot, v, hcareful, hs, hclear, hv, hgoal⟩ := h.clear rfl
    exact of_clear (hcareful _) hs.stopped (hclear.skip hs.ledger) hv.skip hgoal
  | exhausted =>
    obtain ⟨forgets, forgot, v, hcareful, hs, hclear, hv, hgoal⟩ := h.clear rfl
    exact of_clear (hcareful _) hs hclear hv hgoal
  | flush =>
    obtain ⟨forgets, forgot, v, hcareful, hs, hclear, hv, hgoal⟩ := h.clear rfl
    have hkeeps := State.keeps_drain (s.skip g)
    exact of_clear hcareful (hkeeps.tidy hs.skip) (hkeeps.clear (hclear.skip hs.ledger))
      (hv.congr State.ahead_skip) hgoal
  | remark problem =>
    obtain ⟨forgets, forgot, v, ⟨rfl, rfl, hopens, hcareful⟩, hs, hclear, hv, hgoal⟩ := h.clear rfl
    exact of_clear hcareful (hs.remark rfl) (hclear.remark hs.ledger hv hopens) (hv.remark _) hgoal

/-- A token that is consumed keeps the record for what follows. -/
theorem bump (hbump : s.bump g = .ok s') (h : (Script.bump next).KeepsLedger g tokens s goal) :
    next.KeepsLedger g tokens s' goal := by
  obtain ⟨forgets, forgot, v, hcareful, hs, -, hv, hgoal⟩ := h
  obtain ⟨hs', hclear'⟩ := hs.ledger.tidy_bump hbump
  exact of_clear hcareful hs' hclear' s'.faces_none hgoal

/-- What becomes of the frame of a body is no matter of reports. -/
theorem bodied {forgot' : Bool} (hinside : body.Careful forgot' forgot v)
    (hnext : next.Careful forgets forgot' none) (hs : s.Tidy g tokens forgot) (hclear : s.Clear g)
    (hv : s.Faces v) (hgoal : ∀ a s', s'.Tidy g tokens forgets → s'.Clear g → goal a s') :
    body.KeepsLedger g tokens s fun _ s₁ =>
      ∀ f, next.KeepsLedger g tokens { s₁ with frame := f } goal :=
  of_clear hinside hs hclear hv fun _ s₁ hs₁ hclear₁ f =>
    of_clear hnext ((State.keeps_withFrame s₁ f).tidy hs₁)
      ((State.keeps_withFrame s₁ f).clear hclear₁) (State.faces_none _) hgoal

/-- The body of a node keeps the record, whatever the frame is. -/
theorem node {k : Kind} (h : (Script.node k body next).KeepsLedger g tokens s goal) :
    body.KeepsLedger g tokens { s.drain with frame := #[] } fun _ s₁ =>
      ∀ f, next.KeepsLedger g tokens { s₁ with frame := f } goal := by
  obtain ⟨forgets, forgot, v, ⟨forgot', hinside, hnext⟩, hs, hclear, hv, hgoal⟩ := h.clear rfl
  have hkeeps := State.keeps_emptied s
  exact bodied hinside hnext (hkeeps.tidy hs) (hkeeps.clear hclear) (hv.congr rfl) hgoal

/-- The body of a group keeps the record, whatever the frame is. -/
theorem group (h : (Script.group body next).KeepsLedger g tokens s goal) :
    body.KeepsLedger g tokens { s.drain with frame := #[] } fun _ s₁ =>
      ∀ f, next.KeepsLedger g tokens { s₁ with frame := f } goal := by
  obtain ⟨forgets, forgot, v, ⟨forgot', hinside, hnext⟩, hs, hclear, hv, hgoal⟩ := h.clear rfl
  have hkeeps := State.keeps_emptied s
  exact bodied hinside hnext (hkeeps.tidy hs) (hkeeps.clear hclear) (hv.congr rfl) hgoal

/-- The body of what wraps keeps the record, whatever the frame is. -/
theorem wrap {k : Kind} (h : (Script.wrap k body next).KeepsLedger g tokens s goal) :
    body.KeepsLedger g tokens s fun _ s₁ =>
      ∀ f, next.KeepsLedger g tokens { s₁ with frame := f } goal := by
  obtain ⟨forgets, forgot, v, ⟨forgot', hinside, hnext⟩, hs, hclear, hv, hgoal⟩ := h.clear rfl
  exact bodied hinside hnext hs hclear hv hgoal

/-- On a level that was granted the record is kept, and after it was left. -/
theorem granted {next : Bool → Script} (henter : s.enter g = (true, s₁))
    (h : (Script.deeper body next).KeepsLedger g tokens s goal) :
    body.KeepsLedger g tokens s₁ fun _ s₂ => (next true).KeepsLedger g tokens s₂.leave goal := by
  obtain ⟨forgets, forgot, v, ⟨forgot', hinside, hnext⟩, hs, hclear, hv, hgoal⟩ := h.clear rfl
  have hkeeps := State.keeps_enter henter
  refine of_clear hinside (hkeeps.tidy hs) (hkeeps.clear hclear)
    (hv.congr (State.ahead_congr hkeeps.rest)) fun _ s₂ hs₂ hclear₂ => ?_
  have hkeeps' := State.keeps_leave s₂
  exact of_clear hnext (hkeeps'.tidy hs₂) (hkeeps'.clear hclear₂) (State.faces_none _) hgoal

/-- The opener has been seen, so it is consumed, and the body begins with nothing forgotten. -/
theorem enclosed {rules : Rule → State → Reply} (hrules : Rule.Keeping g tokens rules)
    {d : Delimiter} {construct : String} {ifEmpty : Option Problem}
    (hopen : s.openDelimiter g d = .ok s₁)
    (h : (Script.enclosed d construct ifEmpty body next).KeepsLedger g tokens s goal) :
    body.KeepsLedger g tokens s₁ fun b s₂ => body.run g rules s₁ = .ok (b, s₂) → ∀ s₃ s₄,
      s₂.closeDelimiter g d construct = .ok s₃ →
        s₃.closeEmpty g ifEmpty b ((s.skip g).frontSpan g) = .ok s₄ → s₄.exhausted = none →
          next.KeepsLedger g tokens s₄ goal := by
  obtain ⟨forgets, forgot, v, ⟨hfirst, hifEmpty, ⟨forgot', hinside, hcurly⟩, hnext⟩, hs, hclear,
    hv, hgoal⟩ := h.clear rfl
  -- The script has looked at the opener, so the token ahead is one.
  have hfirst := hv _ hfirst
  obtain ⟨hledger₁, hpassed₁, -⟩ := hs.ledger.openDelimiter hclear hfirst hopen
  refine of_clear hinside ⟨hledger₁, .inl hpassed₁.recalls⟩ hpassed₁.clear s₁.faces_none ?_
  intro b s₂ hs₂ hclear₂ hbody s₃ s₄ hclose hempty hexhausted
  have hexhausted₂ : s₂.exhausted = none := (State.later_lasting.closeDelimiter hclose).exhausted
    ((State.later_lasting.closeEmpty hempty).exhausted hexhausted)
  -- If the block must not be empty, its body is the list of statements, which saw strays only.
  have hnone : ∀ problem ∈ ifEmpty, b = false → problem = .emptyBlock ∧ d = .curly ∧
      s₁.Strays s₂ ∧ ((s₂.skip g).rest = [] ∨ s₂.ahead[0]?.getD .error = Kind.rCurly) := by
    rintro problem hproblem rfl
    obtain ⟨rfl, rfl, rfl⟩ := hifEmpty problem hproblem
    have hcall := Rule.run_call_done hbody
    exact ⟨rfl, rfl, hrules.strays _ _ hcall,
      State.rest_of_end hs₂.ledger.running hexhausted₂ (hrules.ends _ _ _ hcall)⟩
  obtain ⟨hs₄, hclear₄⟩ := hs.ledger.enclosed hclear hfirst hopen (run_later hrules.later hbody) hs₂
    hclear₂ hcurly hnone hclose hempty
  exact of_clear hnext hs₄ hclear₄ s₄.faces_none hgoal

/-- A rule that was called keeps the record for what follows, since all rules do. -/
theorem call {rules : Rule → State → Reply} (hrules : Rule.Keeping g tokens rules) {rule : Rule}
    {next : Bool → Script} {b : Bool} (hcall : rules rule s = .ok (b, s₁))
    (hexhausted : s₁.exhausted = none) (h : (Script.call rule next).KeepsLedger g tokens s goal) :
    (next b).KeepsLedger g tokens s₁ goal := by
  obtain ⟨forgets, forgot, v, ⟨hbears, hnext⟩, hs, hclear, hv, hgoal⟩ := h.clear rfl
  obtain ⟨hs₁, hclear₁⟩ := hrules.tidy _ _ _ _ hcall hexhausted (hs.mono hbears) hclear
  exact of_clear (hnext _) hs₁ hclear₁ s₁.faces_none hgoal

end Script.KeepsLedger

/-- The care of a script shows in the ledger, unless a limit is met. -/
def Script.ledgerAnalysis {rules : Rule → State → Reply} (hrules : Rule.Keeping g tokens rules) :
    Script.Analysis g rules where
  Fine := KeepsLedger g tokens
  Last s := s.exhausted = none
  Before := State.Later g
  lasting := State.later_lasting
  before := hrules.later
  back hbefore := hbefore.exhausted
  outer hexhausted := hexhausted
  done h := by
    obtain ⟨forgets, forgot, v, hcareful, hs, hclear, -, hgoal⟩ := h.clear rfl
    exact hgoal _ _ (hs.mono hcareful) hclear
  step hstep _ := .step hstep
  bump hbump _ := .bump hbump
  node h := h.node.mono fun _ _ hnext _ _ => hnext _
  group h := h.group.mono fun _ _ hnext _ _ => hnext _
  wrap h := h.wrap.mono fun _ _ hnext _ _ => hnext _
  refused henter hexhausted _ := absurd hexhausted (State.exhausted_of_enter henter)
  granted henter h := (h.granted henter).mono fun _ _ hnext _ _ => hnext
  enclosed hopen := .enclosed hrules hopen
  call := .call hrules

/-- A careful script keeps the ledger, if the rules that it calls do. -/
theorem Script.run_tidy {rules : Rule → State → Reply} (hrules : Rule.Keeping g tokens rules)
    {script : Script} {s s' : State} {a forgets forgot : Bool} {v : Option Kind}
    (hrun : script.run g rules s = .ok (a, s')) (hexhausted : s'.exhausted = none)
    (hs : s.Tidy g tokens forgot) (hclear : s.Clear g ∨ script.isBump = true) (hv : s.Faces v)
    (hcareful : script.Careful forgets forgot v) :
    s'.Tidy g tokens forgets ∧ s'.Clear g := by
  have hkeeps : script.KeepsLedger g tokens s fun _ s' =>
      s'.Tidy g tokens forgets ∧ s'.Clear g :=
    ⟨forgets, forgot, v, hcareful, hs, hclear, hv, fun _ _ hs' hclear' => ⟨hs', hclear'⟩⟩
  exact run_sound (ledgerAnalysis hrules) hkeeps hrun hexhausted

/-- A run that no limit ends keeps the ledger. -/
theorem Rule.run_tidy {budget : Nat} {rule : Rule} {s s' : State} {a : Bool}
    (hrun : rule.run g budget s = .ok (a, s')) (hexhausted : s'.exhausted = none)
    (hs : s.Tidy g tokens rule.bears) (hclear : s.Clear g) :
    s'.Tidy g tokens rule.forgets ∧ s'.Clear g := by
  induction budget generalizing rule s s' a with
  | zero => cases hrun
  | succ budget ih =>
    have hrules : Rule.Keeping g tokens fun rule => rule.run g budget :=
      { later := fun _ _ _ _ => Rule.run_later
        tidy := fun _ _ _ _ hrun hexhausted hs hclear => ih hrun hexhausted hs hclear
        ends := fun _ _ _ => Rule.run_statements_end
        strays := fun _ _ => Rule.run_statements_false }
    exact Script.run_tidy hrules hrun hexhausted hs (.inl hclear) (State.faces_none s)
      (Rule.careful rule)

end ScriptTree
