import ScriptTree.Proofs.Blocks
import ScriptTree.Proofs.Complaints

/-!
# Reports and places

What the operations of a parse report, and where.  A complaint is about the current token, which is
significant, or about the end of the source.  That a delimiter is unclosed or a block is empty is
reported from its opener on.

Reports are made in the order of the source but for those that start at an opener.
`Diagnostic.Precedes` says what an earlier report and a later one may have to do with each other,
and `Diagnostic.Unwound` how many delimiters are reported to be unclosed.

## Key results

- `State.complain_report`, `State.closeDelimiter_report`: what is reported
- `Setting.reads_lex`: the tokens of a source are in order, and inside it
-/

namespace ScriptTree

/-! ## What is reported -/

namespace Token

variable (t : Token)

/-- A lexical error is shown as it stands. -/
theorem lexDiagnostic_span : t.lexDiagnostic.span = t.span := by
  unfold lexDiagnostic
  split <;> rfl

/-- A lexical error is about its own token. -/
theorem lexDiagnostic_region : t.lexDiagnostic.region = t.span := by
  unfold lexDiagnostic
  split <;> rfl

theorem lexDiagnostic_related : t.lexDiagnostic.related = [] := by
  unfold lexDiagnostic
  split <;> rfl

end Token

namespace State

variable {g : Setting} {s s' : State}

/-- A complaint is about the current token.  Its region is that token, or reaches from the innermost
    open delimiter to the end of the source. -/
theorem complain_report {x : Complaint} (h : s.complain g x = .ok s') :
    ∃ p d, s' = ({ s.skip g with patience := p } : State).reportAt g
        ((s.skip g).frontSpan g).start d ∧
      d.problem = x.problem ∧ d.span = (s.skip g).frontSpan g ∧
      (s.skip g).region g = some d.region ∧ d.related = [] := by
  unfold complain at h
  obtain ⟨⟨found, s₁⟩, hfound, h⟩ := bind_eq_ok_iff.mp h
  obtain ⟨p, rfl⟩ := describeFront_eq_ok hfound
  dsimp only at h
  split at h
  · next region hregion =>
    cases h
    exact ⟨p, _, rfl, rfl, rfl, hregion, rfl⟩
  · cases h

/-- The report that a delimiter is unclosed covers the text from its opener to the end, and points
    to the opener. -/
private theorem reportUnclosed_report {d : Delimiter} {construct : String} {opener : Span}
    (h : s.reportUnclosed g d construct opener = .ok s') :
    ∃ dg, s' = s.reportAt g (s.frontSpan g).start dg ∧ dg.problem = d.unclosed ∧
      dg.span.start = opener.start ∧ dg.span.stop = (s.frontSpan g).stop ∧ dg.region = dg.span ∧
      dg.related.map (·.span) = [opener] := by
  unfold reportUnclosed at h
  dsimp only at h
  split at h
  · next span hspan =>
    cases h
    obtain ⟨hstart, hstop⟩ := Span.make?_eq_some_iff.mp hspan
    exact ⟨_, rfl, rfl, hstart, hstop, rfl, rfl⟩
  · cases h

/-- The innermost delimiter is closed by its closer.  If that is missing, this is reported for the
    whole at the end of the source, and at the current token otherwise. -/
theorem closeDelimiter_report {d : Delimiter} {construct : String} {opener : Span}
    {outer : List (Delimiter × Span)} (hopen : s.delimiters = (d, opener) :: outer)
    (h : s.closeDelimiter g d construct = .ok s') :
    ∃ p, s.ahead[0]?.getD .error = d.closer ∧
        ({ s.skip g with delimiters := outer, patience := p } : State).bump g = .ok s' ∨
      s.ahead[0]?.getD .error ≠ d.closer ∧ ∃ dg,
        s' = ({ s.skip g with delimiters := outer, patience := p } : State).reportAt g
            ((s.skip g).frontSpan g).start dg ∧
          ((s.skip g).rest = [] ∧ dg.problem = d.unclosed ∧ dg.span.start = opener.start ∧
              dg.span.stop = g.sourceEnd ∧ dg.region = dg.span ∧
              dg.related.map (·.span) = [opener] ∨
            (s.skip g).rest ≠ [] ∧ dg.problem = .expectedToken ∧
              dg.span = (s.skip g).frontSpan g ∧
              ({ s.skip g with delimiters := outer } : State).region g = some dg.region ∧
              dg.related = []) := by
  obtain ⟨-, closed, s₁, heat, h⟩ := closeDelimiter_eq_ok_iff.mp h
  rw [hopen, List.tail_cons] at heat
  obtain ⟨found, s₂, hlook, hfound⟩ := eat_eq_ok_iff.mp heat
  obtain ⟨rfl, -, -⟩ := ahead_look hlook
  -- Looking has skipped already, so skipping once more does nothing.
  have hskip : s₂.skip g = s₂ := skip_of_look hlook
  obtain ⟨-, -, hs₂⟩ := look_eq_ok_iff.mp hlook
  rw [skip_withDelimiters] at hs₂
  obtain ⟨hk, rfl, hbump⟩ | ⟨hk, rfl, rfl⟩ := hfound
  · obtain ⟨-, rfl⟩ | ⟨hclosed, -⟩ := h
    · exact ⟨_, .inl ⟨hk, by rw [← hs₂]; exact hbump⟩⟩
    · cases hclosed
  obtain ⟨hclosed, -⟩ | ⟨-, h⟩ := h
  · cases hclosed
  rw [hskip, hopen] at h
  obtain ⟨x, hx, hrest, h⟩ | ⟨hrest, b, hexpect⟩ := h
  -- At the end of the source the report is about the opener.
  · cases hx
    obtain ⟨dg, rfl, hproblem, hstart, hstop, hregion, hrelated⟩ := reportUnclosed_report h
    have hend : (s₁.frontSpan g).stop = g.sourceEnd := by simp [frontSpan, hrest, Span.point]
    subst hs₂
    exact ⟨_, .inr ⟨hk, dg, rfl,
      .inl ⟨hrest, hproblem, hstart, hstop.trans hend, hregion, hrelated⟩⟩⟩
  -- Elsewhere the complaint looks once more, at the same token.
  · obtain ⟨found', s₃, hlook', ⟨hk', -, -⟩ | ⟨-, -, hcomplain⟩⟩ := expect_eq_ok hexpect
    · obtain ⟨hfound', -, -⟩ := ahead_look hlook'
      have hsame : s₁.ahead = s.ahead := (ahead_look hlook).2.1
      rw [hsame] at hfound'
      exact absurd (hfound'.symm.trans hk') hk
    · obtain ⟨p, dg, rfl, hproblem, hspan, hregion, hrelated⟩ := complain_report hcomplain
      rw [skip_of_look hlook'] at hspan hregion ⊢
      obtain ⟨-, -, rfl⟩ := look_eq_ok_iff.mp hlook'
      rw [hskip] at hspan hregion ⊢
      subst hs₂
      exact ⟨p, .inr ⟨hk, dg, rfl,
        .inr ⟨hrest.resolve_left (by simp), hproblem, hspan, hregion, hrelated⟩⟩⟩

end State

/-! ## Places -/

/-- The tokens of a source, in order, for a parse that recovers from errors. -/
structure Setting.Reads (g : Setting) (tokens : List Token) : Prop where
  recovery : g.recovery = true
  sorted : tokens.Pairwise (·.start < ·.start)
  bounded : ∀ t ∈ tokens, t.start < g.sourceEnd
  stop_le : ∀ t ∈ tokens, t.stop ≤ g.sourceEnd

/-- A piece ends before the end of the text at the latest. -/
private theorem Piece.stop_le_of_mem_place {ps : List Piece} {start : Nat} {here : LineCol}
    {t : Token} (ht : t ∈ place start here ps) : t.stop ≤ start + Text.byteLength (spell ps) := by
  induction ps generalizing start here with
  | nil => cases ht
  | cons p ps ih =>
    rw [place] at ht
    rw [spell_cons, Text.byteLength_append]
    obtain rfl | ht := List.mem_cons.mp ht
    · simp [Token.stop, Token.width]
    · have hstop := ih ht
      simp only [Token.stop, Token.width, String.toList_ofList] at hstop ⊢
      omega

/-- The tokens of a text are in order, and inside it. -/
theorem Setting.reads_lex {g : Setting} {source : String} (hrecovery : g.recovery = true)
    (hend : g.sourceEnd = Text.byteLength source.toList) : g.Reads (Token.lex source) := by
  obtain ⟨hsorted, hbounded⟩ := Token.lex_sorted source
  refine ⟨hrecovery, hsorted, fun t ht => by rw [hend]; exact hbounded t ht, fun t ht => ?_⟩
  have hstop := Piece.stop_le_of_mem_place ht
  rwa [Piece.spell_ofText, Nat.zero_add, ← hend] at hstop

namespace State

variable {g : Setting} {s s' : State} {o : Nat}

/-- The offset is in front of all that is to be read. -/
def Past (g : Setting) (s : State) (o : Nat) : Prop :=
  o < g.sourceEnd ∧ ∀ t ∈ s.rest, o < t.start

/-- The offset is that of the next token, which is significant, or that of the end of the source. -/
def At (g : Setting) (s : State) (o : Nat) : Prop :=
  o = (s.frontSpan g).start ∧ ∀ t, s.rest.head? = some t → t.kind.isSkipped = false

/-- What is past stays past further on. -/
theorem Past.of_suffix (h : s.Past g o) (hrest : s'.rest <:+ s.rest) : s'.Past g o :=
  ⟨h.1, fun t ht => h.2 t (hrest.subset ht)⟩

/-- What was skipped has nothing to skip in front. -/
theorem at_skip (g : Setting) (s : State) :
    (s.skip g).At g ((s.skip g).frontSpan g).start := by
  refine ⟨rfl, fun t ht => ?_⟩
  obtain ⟨ts, hrest⟩ := List.head?_eq_some_iff.mp ht
  exact Token.isSkipped_of_dropWhile (skip_rest ▸ hrest)

/-- No offset is both. -/
theorem Past.ne_front (h : s.Past g o) : o ≠ (s.frontSpan g).start := by
  rintro rfl
  unfold frontSpan at h
  split at h
  · exact Nat.lt_irrefl _ h.1
  · next t ts hrest =>
    exact Nat.lt_irrefl _ (h.2 t (by rw [hrest]; exact List.mem_cons_self))

/-- If the next token is significant, skipping does nothing. -/
theorem At.skip_eq (h : s.At g o) : s.skip g = s := by
  unfold skip
  cases hrest : s.rest with
  | nil => rw [passAll, ← hrest]
  | cons t ts =>
    have ht : t.kind.isSkipped = false := h.2 t (by rw [hrest]; rfl)
    rw [passAll, ht]
    simp [← hrest]

/-- What is past lies in front of the current token. -/
theorem Past.lt_front (h : s.Past g o) : o < (s.frontSpan g).start := by
  unfold frontSpan
  split
  · exact h.1
  · next t ts hrest => exact h.2 t (by rw [hrest]; exact List.mem_cons_self)

end State

/-! ## Reports -/

/-- The problem is reported from an opener on. -/
def Problem.isSpanning (problem : Problem) : Bool := problem.isStructural || problem == emptyBlock

namespace Problem

variable {problem : Problem}

/-- An unclosed delimiter spans what it holds. -/
theorem isSpanning_of_isStructural (h : problem.isStructural = true) :
    problem.isSpanning = true := by simp [isSpanning, h]

/-- What spans is not about a single token. -/
theorem isPointed_eq_false_of_isSpanning (h : problem.isSpanning = true) :
    problem.isPointed = false := by
  cases problem <;> first | rfl | cases h

/-- What the lexer reports is not reported about the current token. -/
theorem isPointed_eq_false_of_isLexical (h : problem.isLexical = true) :
    problem.isPointed = false := by
  cases problem <;> first | rfl | cases h

/-- What is reported about the current token is not lexical. -/
theorem isLexical_eq_false_of_isPointed (h : problem.isPointed = true) :
    problem.isLexical = false := by
  cases problem <;> first | rfl | cases h

/-- A complaint is reported about the current token. -/
theorem isPointed_of_isComplaint (h : problem.isComplaint = true) : problem.isPointed = true := by
  cases problem <;> first | rfl | cases h

/-- What is reported about the current token is not about a delimiter. -/
theorem isStructural_eq_false_of_isPointed (h : problem.isPointed = true) :
    problem.isStructural = false := by
  cases problem <;> first | rfl | cases h

/-- A stray is not about a delimiter. -/
theorem isStructural_eq_false_of_isStray (h : problem.isStray = true) :
    problem.isStructural = false := by
  cases problem <;> first | rfl | cases h

end Problem

namespace Diagnostic

/-- What a report says about places is right. -/
structure Sound (g : Setting) (tokens : List Token) (d : Diagnostic) : Prop where
  span_stop : d.span.stop ≤ g.sourceEnd
  /-- Only complaints have a region beyond what they show. -/
  region : d.problem.isComplaint = false → d.region = d.span
  pointed : d.problem.isPointed = true →
    (∃ t ∈ Token.significant tokens, d.span = t.span) ∨ d.span = .point g.sourceEnd
  structural : d.problem.isStructural = true → d.span.stop = g.sourceEnd

/-- The first report may come before the second one. -/
structure Precedes (g : Setting) (b a : Diagnostic) : Prop where
  ordered : b.problem.isPointed = true → a.problem.isPointed = true → b.span.start < a.span.start
  last : b.problem.isStructural = true → a.problem.isPointed = false
  inside : a.region.start < b.span.start → a.region.start ≤ b.region.start ∧
    (a.problem = .emptyBlock ∧ b.problem.isStray = true ∨ a.region.stop = g.sourceEnd)
  together : a.span.start = b.span.start → a.problem.isSpanning = true ∧
    (b.problem.isRootCause = true ∨ b.problem.isSpanning = true)

/-- The report goes with a delimiter that was opened at this offset and is not closed before the
    report is made. -/
structure Within (o : Nat) (d : Diagnostic) : Prop where
  region : o < d.span.start → o ≤ d.region.start
  opener : o = d.span.start → d.problem.isRootCause = true ∨ d.problem.isSpanning = true

/-- A report that shows all of its region comes after what starts in front of it. -/
theorem Precedes.of_lt {g : Setting} {b a : Diagnostic} (hlt : b.span.start < a.span.start)
    (hregion : a.region = a.span)
    (hlast : b.problem.isStructural = true → a.problem.isPointed = false) : b.Precedes g a where
  ordered _ _ := hlt
  last := hlast
  inside hin := by
    rw [hregion] at hin
    exact absurd hlt (Nat.lt_asymm hin)
  together heq := absurd heq.symm (Nat.ne_of_lt hlt)

/-- A report behind the opener lies within the delimiter. -/
theorem Within.of_lt {o : Nat} {d : Diagnostic} (hlt : o < d.span.start)
    (hregion : d.region = d.span) : d.Within o where
  region _ := by
    rw [hregion]
    exact Nat.le_of_lt hlt
  opener heq := absurd heq (Nat.ne_of_lt hlt)

/-- No delimiter is reported to be unclosed. -/
def Closed (ds : List Diagnostic) : Prop := ∀ d ∈ ds, d.problem.isStructural = false

theorem closed_nil : Closed [] := fun _ hd => by cases hd

/-- A report is closed if it is not about a delimiter. -/
theorem closed_singleton {d : Diagnostic} : Closed [d] ↔ d.problem.isStructural = false :=
  List.forall_mem_singleton

/-- Lists of reports are closed one by one. -/
theorem closed_append {ds ds' : List Diagnostic} : Closed (ds ++ ds') ↔ Closed ds ∧ Closed ds' :=
  List.forall_mem_append

/-- The innermost unclosed delimiter is reported, and at most one more: the block around an empty
    one. -/
def Unwound (ds : List Diagnostic) : Prop :=
  Closed ds ∨ (∃ before u after, ds = before ++ u :: after ∧ Closed before ∧ Closed after) ∨
    ∃ (before : List Diagnostic) (u e v : Diagnostic), ds = before ++ [u, e, v] ∧ Closed before ∧
      u.problem = .unclosedBlock ∧ e.problem = .emptyBlock ∧ v.problem = .unclosedBlock ∧
      u.span.start = e.span.start ∧ v.span.start < u.span.start

/-- What holds of all that a parse reports. -/
structure Recorded (g : Setting) (tokens : List Token) (ds : List Diagnostic) : Prop where
  sound : ∀ d ∈ ds, d.Sound g tokens
  pairs : ds.Pairwise (Precedes g)
  unwound : Unwound ds

end Diagnostic

end ScriptTree
