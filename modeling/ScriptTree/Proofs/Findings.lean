import ScriptTree.Proofs.Bookkeeping

/-!
# What a parse reports

What the grammar reports about single tokens comes in the order of the source, and no token is
reported twice.  Of the unclosed delimiters the innermost one is reported, and no other unless the
innermost one belongs to an empty block: the report that the block is empty makes the parse forget
that the end of the source was reported.

## Key results

- `parse_pointed`: the reports about single tokens
- `parse_unclosed`: the reports about unclosed delimiters
-/

namespace ScriptTree

variable {g : Setting} {tokens : List Token}

/-- At the end of a parse, the innermost unclosed delimiter and at most one more is reported. -/
theorem State.Tidy.unwound {s : State} {forgot : Bool} (h : s.Tidy g tokens forgot) :
    Diagnostic.Unwound s.reports := by
  obtain hrecalls | ⟨-, -, ds, e, hds, he, -, -, hlast⟩ := h.recalls
  · exact hrecalls.unwound
  have hclosed : e.problem.isStructural = false := by rw [he]; rfl
  obtain hds' | ⟨before, u, rfl, hbefore, -, -⟩ := hlast
  · exact .inl (by rw [hds, Diagnostic.closed_append, Diagnostic.closed_singleton]
                   exact ⟨hds', hclosed⟩)
  · exact .inr (.inl ⟨before, u, [e], by simp [hds], hbefore,
      Diagnostic.closed_singleton.mpr hclosed⟩)

/-- The ledger is empty in the beginning. -/
private theorem State.ledger_initial (hreads : g.Reads tokens) (steps : Option Nat) :
    (State.initial tokens steps).Ledger g tokens ∧ (State.initial tokens steps).Passed g := by
  have hnone {P : Diagnostic → Prop} : ∀ d ∈ (State.initial tokens steps).reports, P d :=
    fun _ hd => nomatch hd
  refine ⟨?_, hnone, hnone⟩
  exact {
    reads := hreads
    rest := List.suffix_refl _
    running := rfl
    consumedTo := nofun
    openers := .nil
    opened := nofun
    sound := hnone
    pairs := .nil
    within := hnone
    past := hnone
    pointed := hnone
    ended := hnone }

/-- What a parse with recovery reports. -/
theorem parse_recorded {o : Options} {source : String} {p : Parsed} (hrecovery : o.recovery = true)
    (h : parse o source = .ok (.ok p)) :
    ∃ g, g.sourceEnd = Text.byteLength source.toList ∧
      Diagnostic.Recorded g (Token.lex source) p.diagnostics := by
  obtain ⟨a, s, hrun, hfinish⟩ := parseLexed_eq_ok_iff.mp h
  obtain ⟨hexhausted, -, -, hreports⟩ := State.finish_eq_ok hfinish
  have hreads : Setting.Reads ⟨Text.byteLength source.toList, o.recovery, o.depthLimit⟩
      (Token.lex source) := Setting.reads_lex hrecovery rfl
  obtain ⟨hledger, hpassed⟩ := State.ledger_initial hreads o.stepLimit
  obtain ⟨htidy, -⟩ :=
    Rule.run_tidy hrun hexhausted ⟨hledger, .inl hpassed.recalls⟩ hpassed.clear
  have hdiagnostics : p.diagnostics = s.reports := hreports
  rw [hdiagnostics]
  exact ⟨_, rfl, htidy.ledger.sound, htidy.ledger.pairs, htidy.unwound⟩

/-! ## Reports about single tokens -/

/-- What the grammar reports but for unclosed delimiters and empty blocks is reported at one token
    each, from the left to the right, or at the end of the source. -/
theorem parse_pointed (o : Options) (source : String) (p : Parsed) (hrecovery : o.recovery = true)
    (hparse : parse o source = .ok (.ok p)) :
    ((Diagnostic.grammatical p.diagnostics).filter fun d =>
        !(d.problem.isStructural || d.problem == .emptyBlock)).Pairwise
      (·.span.start < ·.span.start) ∧
    ∀ d ∈ Diagnostic.grammatical p.diagnostics, d.problem.isStructural = false →
      d.problem ≠ .emptyBlock →
        (∃ t ∈ Token.significant (Token.lex source), d.span = t.span) ∨
          d.span = .point (Text.byteLength source.toList) := by
  obtain ⟨g, hend, hsound, hpairs, -⟩ := parse_recorded hrecovery hparse
  have hpointed {d : Diagnostic} (hlex : d.problem.isLexical = false)
      (hstruct : d.problem.isStructural = false) (hempty : d.problem ≠ .emptyBlock) :
      d.problem.isPointed = true := by
    simp [Problem.isPointed, hlex, hstruct, hempty]
  constructor
  -- Each report comes after the one before it in the source.
  · rw [Diagnostic.grammatical, List.filter_filter, List.pairwise_filter]
    refine hpairs.imp fun {b a} hprecedes hb ha => ?_
    simp only [Bool.and_eq_true, Bool.not_eq_true', Bool.or_eq_false_iff,
      beq_eq_false_iff_ne] at hb ha
    exact hprecedes.ordered (hpointed hb.2 hb.1.1 hb.1.2) (hpointed ha.2 ha.1.1 ha.1.2)
  -- Each report is at the start of a token or at the end of the source.
  · intro d hd hstruct hempty
    obtain ⟨hd, hlex⟩ := List.mem_filter.mp hd
    rw [← hend]
    exact (hsound d hd).pointed (hpointed (by simpa using hlex) hstruct hempty)

/-- A parenthesis is missing at a semicolon, and an expression at the end. -/
theorem parse_pointed_missing : ∃ p, parse .default "f(;if(" = .ok (.ok p) ∧
    (Diagnostic.grammatical p.diagnostics).map (·.span.start) = [2, 6] ∧
    ((Diagnostic.grammatical p.diagnostics).filter fun d =>
        !(d.problem.isStructural || d.problem == .emptyBlock)).Pairwise
      (·.span.start < ·.span.start) ∧
    ∀ d ∈ Diagnostic.grammatical p.diagnostics, d.problem.isStructural = false →
      d.problem ≠ .emptyBlock →
        (∃ t ∈ Token.significant (Token.lex "f(;if("), d.span = t.span) ∨
          d.span = .point (Text.byteLength "f(;if(".toList) := by
  have hparse : parse .default "f(;if(" = .ok (.ok ⟨.node .program
      [.node .exprStmt [.node .memberExpr [.node .nameRef [.leaf .identifier "f"],
        .node .callArgs [.leaf .lParen "("]], .leaf .semiColon ";"],
      .node .ifStmt [.leaf .kwIf "if", .leaf .lParen "(", .node .logicBlock []]],
      [{ Diagnostic.ofProblem .expectedToken ⟨2, 3, by decide⟩ with
          message := "expected `)` to close the argument list"
          expected := some "`)`", found := some "`;`" },
        { Diagnostic.ofProblem .expectedExpression ⟨6, 6, by decide⟩ with
          expected := some "an expression", found := some "end of file" }]⟩) := by decide +kernel
  exact ⟨_, hparse, rfl, parse_pointed .default _ _ rfl hparse⟩

/-! ## Reports about unclosed delimiters -/

/-- At most one delimiter is reported to be unclosed, but for the block around one that is empty. -/
theorem parse_unclosed (o : Options) (source : String) (p : Parsed) (hrecovery : o.recovery = true)
    (hparse : parse o source = .ok (.ok p)) :
    p.diagnostics.countP (·.problem.isStructural) ≤ 1 ∨
      ∃ (before : List Diagnostic) (u e v : Diagnostic), p.diagnostics = before ++ [u, e, v] ∧
        before.countP (·.problem.isStructural) = 0 ∧ u.problem = .unclosedBlock ∧
        e.problem = .emptyBlock ∧ v.problem = .unclosedBlock ∧
        u.span.start = e.span.start ∧ v.span.start < u.span.start := by
  obtain ⟨g, -, -, -, hunwound⟩ := parse_recorded hrecovery hparse
  have hnone {ds : List Diagnostic} (h : Diagnostic.Closed ds) :
      ds.countP (·.problem.isStructural) = 0 :=
    List.countP_eq_zero.mpr fun d hd => by simp [h d hd]
  obtain hclosed | ⟨before, u, after, heq, hbefore, hafter⟩ |
    ⟨before, u, e, v, heq, hbefore, hu, he, hv, hstart, hlt⟩ := hunwound
  · exact .inl (by rw [hnone hclosed]; exact Nat.zero_le 1)
  · left
    rw [heq, List.countP_append, List.countP_cons, hnone hbefore, hnone hafter]
    split <;> omega
  · exact .inr ⟨before, u, e, v, heq, hnone hbefore, hu, he, hv, hstart, hlt⟩

/-- Of a call and a list in it, the list is reported. -/
theorem parse_unclosed_list : ∃ p, parse .default "f([" = .ok (.ok p) ∧
    p.diagnostics.map (·.problem) = [.unclosedBracket] ∧
    (p.diagnostics.countP (·.problem.isStructural) ≤ 1 ∨
      ∃ (before : List Diagnostic) (u e v : Diagnostic), p.diagnostics = before ++ [u, e, v] ∧
        before.countP (·.problem.isStructural) = 0 ∧ u.problem = .unclosedBlock ∧
        e.problem = .emptyBlock ∧ v.problem = .unclosedBlock ∧
        u.span.start = e.span.start ∧ v.span.start < u.span.start) := by
  have hparse : parse .default "f([" = .ok (.ok ⟨.node .program
      [.node .exprStmt [.node .memberExpr [.node .nameRef [.leaf .identifier "f"],
        .node .callArgs [.leaf .lParen "(", .node .arrayLiteral [.leaf .lBracket "["]]]]],
      [{ Diagnostic.ofProblem .unclosedBracket ⟨2, 3, by decide⟩ with
          found := some "end of file"
          related := [⟨⟨2, 3, by decide⟩, "array literal started here"⟩] }]⟩) := by decide +kernel
  exact ⟨_, hparse, rfl, parse_unclosed .default _ _ rfl hparse⟩

/-- Two blocks in each other are both reported if the inner one is empty. -/
theorem not_unclosedOnce : ∃ p, parse .default "\x7b\x7b" = .ok (.ok p) ∧
    ¬ p.diagnostics.countP (·.problem.isStructural) ≤ 1 := by
  have hparse : parse .default "\x7b\x7b" = .ok (.ok ⟨.node .program
      [.node .block [.leaf .lCurly "\x7b", .node .block [.leaf .lCurly "\x7b"]]],
      [{ Diagnostic.ofProblem .unclosedBlock ⟨1, 2, by decide⟩ with
          found := some "end of file", related := [⟨⟨1, 2, by decide⟩, "block started here"⟩] },
        .ofProblem .emptyBlock ⟨1, 2, by decide⟩,
        { Diagnostic.ofProblem .unclosedBlock ⟨0, 2, by decide⟩ with
          found := some "end of file"
          related := [⟨⟨0, 1, by decide⟩, "block started here"⟩] }]⟩) := by decide +kernel
  exact ⟨_, hparse, by decide⟩

end ScriptTree
