import ScriptTree.Proofs.Locations
import ScriptTree.Snippet

/-!
# Ranges of diagnostics

A diagnostic is shown beside its source, so the places in it must be places of that source: in
order, inside, and between characters.  All places of a report go back to tokens, whose ends have
these properties, or to the end of the source, and this holds of a parse without recovery as well.

## Key results

- `parse_ranges`: what a parse reports can be shown
- `parse_lexical`: the lexical errors are those of the tokens
-/

namespace ScriptTree

/-! ## Places in a source -/

/-- The end of a first part of a text falls between two characters. -/
private theorem Text.isBoundary_append (as bs : List Char) :
    IsBoundary (as ++ bs) (byteLength as) := by
  rw [IsBoundary, Piece.splitBytes_append]
  rfl

/-- The span marks a part of the source. -/
structure Span.Fits (source : String) (s : Span) : Prop where
  start_le_stop : s.start ≤ s.stop
  stop_le : s.stop ≤ Text.byteLength source.toList
  start_boundary : Text.IsBoundary source.toList s.start
  stop_boundary : Text.IsBoundary source.toList s.stop

/-- Two parts of a text in front of what is left. -/
theorem Span.Fits.of_append {source : String} {as bs cs : List Char}
    (hsource : source.toList = as ++ bs ++ cs) {s : Span} (hstart : s.start = Text.byteLength as)
    (hstop : s.stop = Text.byteLength (as ++ bs)) : s.Fits source where
  start_le_stop := s.start_le_stop
  stop_le := by
    rw [hstop, hsource, Text.byteLength_append (as ++ bs)]
    exact Nat.le_add_right _ _
  start_boundary := by
    rw [hstart, hsource, List.append_assoc]
    exact Text.isBoundary_append as _
  stop_boundary := by
    rw [hstop, hsource]
    exact Text.isBoundary_append _ cs

/-- The end of the source is a place in it. -/
private theorem Span.fits_end (source : String) :
    (Span.point (Text.byteLength source.toList)).Fits source := by
  have hsource : source.toList = source.toList ++ [] ++ [] := by simp
  exact .of_append hsource rfl (by simp [Span.point])

/-- From the start of one place to the end of another one. -/
theorem Span.Fits.join {source : String} {s t u : Span} (hs : s.Fits source) (ht : t.Fits source)
    (hstart : u.start = s.start) (hstop : u.stop = t.stop) : u.Fits source where
  start_le_stop := u.start_le_stop
  stop_le := hstop ▸ ht.stop_le
  start_boundary := hstart ▸ hs.start_boundary
  stop_boundary := hstop ▸ ht.stop_boundary

/-- The span of a token fits its source. -/
private theorem Token.span_fits {source : String} {t : Token} (ht : t ∈ Token.lex source) :
    t.span.Fits source := by
  obtain ⟨as, p, -, bs, htext, hspell, hstart, -⟩ := Piece.exists_of_mem_place ht
  rw [Piece.spell_ofText] at hspell
  rw [Nat.zero_add] at hstart
  refine .of_append hspell hstart ?_
  rw [Text.byteLength_append, ← hstart, ← htext]
  rfl

/-- The tokens of a text are laid out one after the other. -/
theorem Token.laid_lex (source : String) : Token.Laid (Token.lex source) := by
  refine ⟨(Token.lex_sorted source).1, fun t ht => ?_⟩
  obtain ⟨-, p, hp, -, htext, -⟩ := Piece.exists_of_mem_place ht
  have hwidth : t.width ≠ 0 := fun hzero => by
    rw [Token.width, htext] at hzero
    exact Piece.ne_nil_of_mem_ofText source.toList p hp (Text.eq_nil_of_byteLength hzero)
  rw [Token.stop]
  omega

/-! ## Widened spans -/

namespace Snippet

open Text

namespace SourceLine

/-- A carriage return that is taken off is counted. -/
private theorem byteLength_trimReturn (cs : List Char) :
    byteLength (trimReturn cs).1 + (trimReturn cs).2 = byteLength cs := by
  unfold trimReturn
  split
  · next hlast =>
    obtain ⟨init, rfl⟩ := List.getLast?_eq_some_iff.mp hlast
    rw [List.dropLast_concat, byteLength_append]
    rfl
  · rfl

/-- A text has as many bytes backwards. -/
private theorem byteLength_reverse (cs : List Char) : byteLength cs.reverse = byteLength cs := by
  induction cs with
  | nil => rfl
  | cons c cs ih => simp [ih, Nat.add_comm]

/-- The last line ends where the text does. -/
private theorem stop_getLast?_splitFrom (number start : Nat) (line cs : List Char)
    (h : line ≠ [] ∨ cs ≠ []) : (splitFrom number start line cs).getLast?.map stop =
      some (start + byteLength line + byteLength cs) := by
  -- Induction on the text, with the line so far.
  induction cs generalizing number start line with
  | nil =>
    have hline : line ≠ [] := h.resolve_right (by simp)
    simp [splitFrom, hline, stop, textEnd, byteLength_reverse]
  | cons c cs ih =>
    unfold splitFrom
    split
    · next hc =>
      have hwidth := byteLength_trimReturn line.reverse
      rw [byteLength_reverse] at hwidth
      have hbreak : '\n'.utf8Size = 1 := rfl
      dsimp only
      by_cases hcs : cs = []
      -- The line break ends the text.
      · simp [hcs, hc, splitFrom, stop, textEnd, hbreak]
        omega
      · obtain ⟨last, hlast, hstop⟩ := Option.map_eq_some_iff.mp (ih (number + 1)
          (SourceLine.stop ⟨number, (trimReturn line.reverse).1, start,
            (trimReturn line.reverse).2 + 1⟩) [] (.inr hcs))
        rw [List.getLast?_cons, hlast, Option.getD_some, Option.map_some, hstop]
        simp only [stop, textEnd, byteLength_nil, byteLength_cons, hc, hbreak]
        congr 1
        omega
    -- The character joins the line.
    · rw [ih _ _ _ (.inl (by simp))]
      simp only [byteLength_cons, Option.some.injEq]
      omega

/-- The lines of a source end where the source does. -/
private theorem sourceEnd_split (cs : List Char) : sourceEnd (split cs) = byteLength cs := by
  unfold split
  split
  · next hnil => rw [List.isEmpty_iff.mp hnil]; rfl
  · next hcs =>
    rw [sourceEnd, stop_getLast?_splitFrom 1 0 [] cs (.inr (by simpa using hcs))]
    simp

end SourceLine

/-- Only an empty span inside the source is widened. -/
private theorem widen_eq_self {limit : Nat} {s : Span} (h : s.start = s.stop → limit ≤ s.start) :
    widen limit s = s :=
  dif_neg fun ⟨hempty, hlt⟩ => absurd (h hempty) (Nat.not_le_of_lt hlt)

end Snippet

/-! ## Reports -/

namespace Diagnostic

variable {source : String} {d : Diagnostic}

/-- All that a report shows are places of the source, and none of them is empty but for its end. -/
theorem Located.fits (h : d.Located (Text.byteLength source.toList) (Token.lex source)) :
    ∀ s ∈ d.places, s.Fits source ∧
      (s.start = s.stop → Text.byteLength source.toList ≤ s.start) := by
  have hlaid := Token.laid_lex source
  have hspan {t : Token} (ht : t ∈ Token.lex source) : t.span.Fits source ∧
      (t.span.start = t.span.stop → Text.byteLength source.toList ≤ t.span.start) :=
    ⟨Token.span_fits ht, fun hempty => absurd hempty (Nat.ne_of_lt (hlaid.nonempty t ht))⟩
  have hmem {t : Token} (ht : t ∈ Token.significant (Token.lex source)) : t ∈ Token.lex source :=
    (List.mem_filter.mp ht).1
  have hend : (Span.point (Text.byteLength source.toList)).Fits source := Span.fits_end source
  -- One case for each way a diagnostic is placed.
  cases h with
  | lexical t ht _ heq =>
    have hplaces : d.places = [t.span] := by
      rw [heq, places, Token.lexDiagnostic_span, Token.lexDiagnostic_related]
      rfl
    rw [hplaces, List.forall_mem_singleton]
    exact hspan ht
  | token t ht _ hplaces =>
    rw [hplaces, List.forall_mem_singleton]
    exact hspan (hmem ht)
  | atEnd _ hplaces =>
    rw [hplaces, List.forall_mem_singleton]
    exact ⟨hend, fun _ => Nat.le_refl _⟩
  | unclosed _ t ht _ _ hstart hstop hrelated =>
    rw [places, hrelated, List.forall_mem_cons, List.forall_mem_singleton]
    have ht := hspan (hmem ht)
    -- The span from the opener to the end of the source.
    refine ⟨⟨ht.1.join hend hstart hstop, fun hempty => ?_⟩, ht⟩
    rw [hempty, hstop]
  | empty t u ht hu _ _ hstart hstop hlt hrelated =>
    rw [places, hrelated, List.map_nil, List.forall_mem_singleton]
    refine ⟨(hspan (hmem ht)).1.join (hspan (hmem hu)).1 hstart hstop, fun hempty => ?_⟩
    -- A block has a brace, so its span is not empty.
    rw [hstart, hstop] at hempty
    exact absurd hempty (Nat.ne_of_lt hlt)

variable {sourceEnd : Nat} {tokens : List Token}

/-- A lexical report goes back to a token that is a lexical error. -/
private theorem Located.of_isLexical (h : d.Located sourceEnd tokens)
    (hproblem : d.problem.isLexical) :
    ∃ t ∈ tokens, t.kind.isLexError = true ∧ d.span = t.span := by
  have hpointed : d.problem.isPointed = false := Problem.isPointed_eq_false_of_isLexical hproblem
  cases h with
  | lexical t ht herror heq => exact ⟨t, ht, herror, heq ▸ t.lexDiagnostic_span⟩
  | token _ _ h | atEnd h => simp [hpointed] at h
  | unclosed delimiter _ _ _ h =>
    rw [h] at hproblem
    cases delimiter <;> cases hproblem
  | empty _ _ _ _ _ h =>
    rw [h] at hproblem
    cases hproblem

/-- The report that a delimiter is unclosed goes back to its opener. -/
private theorem Located.of_unclosed (h : d.Located sourceEnd tokens) {delimiter : Delimiter}
    (hproblem : d.problem = delimiter.unclosed) : d.span.stop = sourceEnd ∧
      ∃ t ∈ Token.significant tokens, t.kind = delimiter.opener ∧ d.span.start = t.start ∧
        d.related.map (·.span) = [t.span] := by
  have hstructural : d.problem.isStructural = true := hproblem ▸ delimiter.isStructural_unclosed
  cases h with
  | lexical t _ _ heq =>
    have hlexical := t.isLexical_lexDiagnostic
    rw [← heq, hproblem] at hlexical
    cases delimiter <;> cases hlexical
  | token _ _ h | atEnd h => simp [Problem.isStructural_eq_false_of_isPointed h] at hstructural
  | unclosed delimiter' t ht hkind h hstart hstop hrelated =>
    obtain rfl : delimiter' = delimiter := by
      rw [h] at hproblem
      cases delimiter' <;> cases delimiter <;> first | rfl | cases hproblem
    exact ⟨hstop, t, ht, hkind, hstart, hrelated⟩
  | empty _ _ _ _ _ h =>
    rw [h] at hstructural
    cases hstructural

/-- The report that a block is empty goes back to its brace. -/
private theorem Located.of_emptyBlock (h : d.Located sourceEnd tokens)
    (hproblem : d.problem = .emptyBlock) :
    ∃ t ∈ Token.significant tokens, ∃ u ∈ Token.significant tokens,
      t.kind = .lCurly ∧ d.span.start = t.start ∧ d.span.stop = u.stop := by
  cases h with
  | lexical t _ _ heq =>
    have hlexical := t.isLexical_lexDiagnostic
    rw [← heq, hproblem] at hlexical
    cases hlexical
  | token _ _ h | atEnd h =>
    rw [hproblem] at h
    cases h
  | unclosed delimiter _ _ _ h =>
    rw [hproblem] at h
    cases delimiter <;> cases h
  | empty t u ht hu hkind _ hstart hstop => exact ⟨t, ht, u, hu, hkind, hstart, hstop⟩

end Diagnostic

/-- What was reported, if the parse came to its end or an error halted it. -/
def Outcome.diagnostics : Outcome → List Diagnostic
  | .ok (.ok p) => p.diagnostics
  | .ok (.error (.failed ds)) => ds
  | _ => []

/-- What is reported in the end is on record in the last state. -/
private theorem State.finish_diagnostics {source : String} {s : State} {d : Diagnostic}
    (hd : d ∈ (s.finish source).diagnostics) : s.exhausted = none ∧ d ∈ s.reports := by
  unfold State.finish at hd
  split at hd
  · cases hd
  · next hexhausted =>
    refine ⟨hexhausted, ?_⟩
    split at hd
    · exact hd
    · dsimp only at hd
      split at hd
      · exact hd
      · cases hd

/-- All that a parse reports goes back to tokens. -/
theorem parse_located {o : Options} {source : String} {d : Diagnostic}
    (hd : d ∈ (parse o source).diagnostics) :
    d.Located (Text.byteLength source.toList) (Token.lex source) := by
  cases hparse : parse o source with
  | error fault =>
    rw [hparse] at hd
    cases hd
  | ok outcome =>
    obtain ⟨a, s, hrun, hfinish⟩ := parseLexed_eq_ok_iff.mp hparse
    rw [hparse, ← hfinish] at hd
    obtain ⟨hexhausted, hd⟩ := State.finish_diagnostics hd
    exact (Rule.run_traced (Token.laid_lex source) hrun hexhausted
      (State.traced_initial _ _ _)).located d hd

/-- Whatever a parse reports, in whatever mode, can be shown: its places are places of the source,
    also if an empty one is widened.  A lexical error is reported where its token is; an unclosed
    delimiter from its opener to the end of the source; an empty block from its brace to the end of
    a token. -/
theorem parse_ranges (o : Options) (source : String) (d : Diagnostic)
    (hd : d ∈ (parse o source).diagnostics) :
    (∀ s ∈ d.places, s.Fits source ∧
      (Snippet.widen (Snippet.SourceLine.sourceEnd (Snippet.SourceLine.split source.toList))
        s).Fits source) ∧
    (d.problem.isLexical = true →
      ∃ t ∈ Token.lex source, t.kind.isLexError = true ∧ d.span = t.span) ∧
    (∀ delimiter : Delimiter, d.problem = delimiter.unclosed →
      d.span.stop = Text.byteLength source.toList ∧
        ∃ t ∈ Token.significant (Token.lex source), t.kind = delimiter.opener ∧
          d.span.start = t.start ∧ d.related.map (·.span) = [t.span]) ∧
    (d.problem = .emptyBlock → ∃ t ∈ Token.significant (Token.lex source),
      ∃ u ∈ Token.significant (Token.lex source), t.kind = .lCurly ∧ d.span.start = t.start ∧
        d.span.stop = u.stop) := by
  have hlocated := parse_located hd
  refine ⟨fun s hs => ?_, hlocated.of_isLexical, fun _ => hlocated.of_unclosed,
    hlocated.of_emptyBlock⟩
  obtain ⟨hfits, hempty⟩ := hlocated.fits s hs
  rw [Snippet.SourceLine.sourceEnd_split, Snippet.widen_eq_self hempty]
  exact ⟨hfits, hfits⟩

/-- A block that is empty and unclosed, behind a string that is unclosed, too. -/
theorem parse_ranges_unclosed : ∃ r u e, (parse .default "\"é\n\x7b").diagnostics = [r, u, e] ∧
    (∃ t ∈ Token.lex "\"é\n\x7b", t.kind.isLexError = true ∧ r.span = t.span) ∧
    (u.span.stop = 5 ∧ ∃ t ∈ Token.significant (Token.lex "\"é\n\x7b"), t.kind = .lCurly ∧
      u.span.start = t.start ∧ u.related.map (·.span) = [t.span]) ∧
    (∃ t ∈ Token.significant (Token.lex "\"é\n\x7b"),
      ∃ v ∈ Token.significant (Token.lex "\"é\n\x7b"),
        t.kind = .lCurly ∧ e.span.start = t.start ∧ e.span.stop = v.stop) ∧
    ∀ d ∈ [r, u, e], ∀ s ∈ d.places, s.Fits "\"é\n\x7b" := by
  have hparse : (parse .default "\"é\n\x7b").diagnostics =
      [.ofProblem .malformedString ⟨0, 3, by decide⟩,
        { Diagnostic.ofProblem .unclosedBlock ⟨4, 5, by decide⟩ with
          found := some "end of file", related := [⟨⟨4, 5, by decide⟩, "block started here"⟩] },
        .ofProblem .emptyBlock ⟨4, 5, by decide⟩] := by decide +kernel
  have hranges (d : Diagnostic) := parse_ranges .default "\"é\n\x7b" d
  rw [hparse] at hranges ⊢
  refine ⟨_, _, _, rfl, ?_, ?_, ?_, fun d hd s hs => ((hranges d hd).1 s hs).1⟩
  · exact (hranges _ List.mem_cons_self).2.1 rfl
  · exact (hranges _ (List.mem_cons_of_mem _ List.mem_cons_self)).2.2.1 .curly rfl
  · exact (hranges _ (List.mem_cons_of_mem _ (List.mem_cons_of_mem _ List.mem_cons_self))).2.2.2 rfl

/-! ## Lexical errors -/

/-- The lexical errors that a parse with recovery reports are those of the tokens, in order. -/
theorem parse_lexical (o : Options) (source : String) (p : Parsed) (hrecovery : o.recovery = true)
    (hparse : parse o source = .ok (.ok p)) :
    Diagnostic.lexical p.diagnostics = (Token.tokenize source).2 := by
  obtain ⟨a, s, hrun, hfinish⟩ := parseLexed_eq_ok_iff.mp hparse
  obtain ⟨hexhausted, hhalted, -, hreports⟩ := State.finish_eq_ok hfinish
  have htraced := Rule.run_traced (Token.laid_lex source) hrun hexhausted
    (State.traced_initial _ _ _)
  obtain ⟨-, hlexical⟩ := htraced.lexical hrecovery
  have hnil : Token.lexDiagnostics [] = [] := rfl
  rw [(Rule.run_program_rest hrun hexhausted hhalted).1, hnil, List.append_nil] at hlexical
  rw [hreports]
  exact hlexical

/-- Errors in front of what the grammar complains about, and behind. -/
theorem parse_lexical_mixed : ∃ p, parse .default "\"\n)\"" = .ok (.ok p) ∧
    p.diagnostics.map (·.problem) = [.malformedString, .expectedStatement, .malformedString] ∧
    Diagnostic.lexical p.diagnostics = (Token.tokenize "\"\n)\"").2 := by
  have hparse : parse .default "\"\n)\"" = .ok (.ok ⟨.node .program
      [.leaf .malformedString "\"", .leaf .whitespace "\n", .node .error [.leaf .rParen ")"],
        .leaf .malformedString "\""],
      [.ofProblem .malformedString ⟨0, 1, by decide⟩,
        { Diagnostic.ofProblem .expectedStatement ⟨2, 3, by decide⟩ with
          expected := some "a declaration or statement", found := some "`)`" },
        .ofProblem .malformedString ⟨3, 4, by decide⟩]⟩) := by decide +kernel
  exact ⟨_, hparse, rfl, parse_lexical .default _ _ rfl hparse⟩

end ScriptTree
