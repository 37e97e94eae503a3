import ScriptTree.Proofs.Nesting

/-!
# The statements of a block

A list of statements answers whether there was one.  It ends at a closing brace, or where the parse
does.  If it answers that there was none, it has only passed over what stands between statements:
semicolons, imports, and tokens that start nothing.  No delimiter was opened meanwhile, and what was
reported is harmless (`Problem.isStray`).

## Key results

- `Rule.run_statements_end`: where a list of statements ends
- `Rule.run_statements_false`: what is reported if there was no statement
-/

namespace ScriptTree

variable {g : Setting}

/-- What may be wrong between statements. -/
def Problem.isStray : Problem → Bool
  | expectedStatement | expectedImportPath | unexpectedToken | redundantSemicolon => true
  | problem => problem.isLexical

/-- Lexical errors are harmless anywhere. -/
private theorem Problem.isStray_of_isLexical {problem : Problem} (h : problem.isLexical = true) :
    problem.isStray = true := by
  cases problem <;> first | rfl | cases h

namespace State

variable {s s' s'' : State}

/-- What was reported in addition is wrong between statements. -/
def Strays (s s' : State) : Prop :=
  ∃ ds, s'.diagnostics.toList = s.diagnostics.toList ++ ds ∧ ∀ d ∈ ds, d.problem.isStray = true

/-- Where nothing is reported, only strays are. -/
theorem Strays.of_eq (h : s'.diagnostics = s.diagnostics) : s.Strays s' :=
  ⟨[], by simp [h], by simp⟩

/-- Strays and then strays are strays. -/
theorem Strays.trans (h : s.Strays s') (h' : s'.Strays s'') : s.Strays s'' := by
  obtain ⟨ds, hds, hstray⟩ := h
  obtain ⟨ds', hds', hstray'⟩ := h'
  refine ⟨ds ++ ds', by rw [hds', hds, List.append_assoc], fun d hd => ?_⟩
  exact (List.mem_append.mp hd).elim (hstray d) (hstray' d)

/-- What is skipped are lexical errors at most, and those are strays. -/
theorem strays_skip (g : Setting) (s : State) : s.Strays (s.skip g) := by
  refine ⟨passReports g s.halted (s.rest.takeWhile (·.kind.isSkipped)), by simp [skip_eq],
    fun d hd => ?_⟩
  obtain ⟨t, rfl⟩ := mem_passReports hd
  exact Problem.isStray_of_isLexical t.isLexical_lexDiagnostic

/-- A report of a stray is a stray. -/
private theorem strays_reportAt {d : Diagnostic} (hd : d.problem.isStray = true) (o : Nat) :
    s.Strays (s.reportAt g o d) := by
  unfold reportAt
  split
  · exact .of_eq rfl
  · exact ⟨[d], by simp [emit], by simpa using hd⟩

/-- A lookahead reports lexical errors at most. -/
private theorem strays_look {n : Nat} {k : Kind} (h : s.look g n = .ok (k, s')) : s.Strays s' := by
  obtain ⟨-, -, rfl⟩ := look_eq_ok_iff.mp h
  exact (strays_skip g s).trans (.of_eq rfl)

/-- Consuming a token reports lexical errors at most. -/
private theorem strays_bump (h : s.bump g = .ok s') : s.Strays s' := by
  obtain ⟨t, ts, -, rfl⟩ := bump_eq_ok_iff.mp h
  exact (strays_skip g s).trans (.of_eq (consume_diagnostics t ts))

/-- A complaint about a stray is a stray. -/
private theorem strays_complain {x : Complaint} (hx : x.problem.isStray = true)
    (h : s.complain g x = .ok s') : s.Strays s' := by
  obtain ⟨p, d, rfl, hd⟩ := complain_eq_ok h
  have hpatience : (s.skip g).Strays { s.skip g with patience := p } := .of_eq rfl
  exact (strays_skip g s).trans (hpatience.trans (strays_reportAt (hd ▸ hx) _))

/-- A warning about a stray is a stray. -/
private theorem strays_remark {problem : Problem} (h : problem.isStray = true) :
    s.Strays (s.remark g problem) := (strays_skip g s).trans (strays_reportAt h _)

/-- To enter a level reports at most that it is too deep. -/
private theorem strays_enter {b : Bool} (h : s.enter g = (b, s')) : s.Strays s' := by
  obtain ⟨_, _, _, rfl⟩ := enter_eq h
  exact .of_eq rfl

end State

/-- The rules for what stands between statements. -/
def Rule.isStray : Rule → Bool
  | importDecl | discard _ => true
  | _ => false

/-- All that the script reports is wrong between statements, and it opens no delimiter. -/
def Script.Strays : Script → Prop
  | .done _ | .fail _ => True
  | .look _ next => ∀ k, (next k).Strays
  | .text next => ∀ t, (next t).Strays
  | .stopped next | .exhausted next => ∀ b, (next b).Strays
  | .bump next | .flush next => next.Strays
  | .complain x next => x.problem.isStray = true ∧ next.Strays
  | .remark problem next => problem.isStray = true ∧ next.Strays
  | .node _ body next | .group body next | .wrap _ body next => body.Strays ∧ next.Strays
  | .deeper body next => body.Strays ∧ ∀ b, (next b).Strays
  | .enclosed .. => False
  | .call rule next => rule.isStray = true ∧ ∀ a, (next a).Strays

/-- A script reports what it says, if the rules that it calls do. -/
theorem Script.run_strays {rules : Rule → State → Reply}
    (hrules : ∀ rule s a s', rules rule s = .ok (a, s') → rule.isStray = true → s.Strays s')
    {script : Script} {s s' : State} {a : Bool} (hrun : script.run g rules s = .ok (a, s'))
    (h : script.Strays) : s.Strays s' := by
  -- Induction on the script: each step adds reports of strays only.
  induction script generalizing s s' a with
  | done answer =>
    cases hrun
    exact .of_eq rfl
  | fail fault => cases hrun
  | look n next ih =>
    obtain ⟨k, s₁, hlook, hrun⟩ := run_look_eq_ok_iff.mp hrun
    exact (State.strays_look hlook).trans (ih k hrun (h k))
  | text next ih => exact (State.strays_skip g s).trans (ih _ hrun (h _))
  | stopped next ih => exact (State.strays_skip g s).trans (ih _ hrun (h _))
  | exhausted next ih => exact ih _ hrun (h _)
  | bump next ih =>
    obtain ⟨s₁, hbump, hrun⟩ := run_bump_eq_ok_iff.mp hrun
    exact (State.strays_bump hbump).trans (ih hrun h)
  | flush next ih =>
    have hnext : (s.skip g).drain.Strays s' := ih hrun h
    exact (State.strays_skip g s).trans hnext
  | complain x next ih =>
    obtain ⟨s₁, hcomplain, hrun⟩ := run_complain_eq_ok_iff.mp hrun
    exact (State.strays_complain h.1 hcomplain).trans (ih hrun h.2)
  | remark problem next ih => exact (State.strays_remark h.1).trans (ih hrun h.2)
  | node k body next ihbody ihnext =>
    obtain ⟨b, s₁, hbody, hrun⟩ := run_node_eq_ok_iff.mp hrun
    have hbody := ihbody hbody h.1
    have hnext := ihnext hrun h.2
    have hs₁ : s.Strays s₁ := hbody
    exact hs₁.trans hnext
  | group body next ihbody ihnext =>
    obtain ⟨b, s₁, hbody, hrun⟩ := run_group_eq_ok_iff.mp hrun
    have hbody := ihbody hbody h.1
    have hnext := ihnext hrun h.2
    have hs₁ : s.Strays s₁ := hbody
    exact hs₁.trans hnext
  | wrap k body next ihbody ihnext =>
    obtain ⟨b, s₁, hbody, hrun⟩ := run_wrap_eq_ok_iff.mp hrun
    have hbody := ihbody hbody h.1
    have hnext := ihnext hrun h.2
    have hs₁ : s.Strays s₁ := hbody
    exact hs₁.trans hnext
  | deeper body next ihbody ihnext =>
    obtain ⟨s₁, henter, hrun⟩ | ⟨s₁, b, s₂, henter, hbody, hrun⟩ := run_deeper_eq_ok_iff.mp hrun
    · exact (State.strays_enter henter).trans (ihnext _ hrun (h.2 _))
    · have hs₂ : s.Strays s₂ := (State.strays_enter henter).trans (ihbody hbody h.1)
      have hnext := ihnext _ hrun (h.2 _)
      exact hs₂.trans hnext
  -- Within strays nothing is enclosed.
  | enclosed => exact h.elim
  | call rule next ih =>
    obtain ⟨b, s₁, hcall, hrun⟩ := run_call_eq_ok_iff.mp hrun
    exact (hrules _ _ _ _ hcall h.1).trans (ih _ hrun (h.2 _))

/-! ## What stands between statements -/

namespace Fragment

variable {α β : Type} {m n : Fragment α}

/-- All that the fragment reports is wrong between statements. -/
def Strays (m : Fragment α) : Prop :=
  ∀ next : α → Script, (∀ a, (next a).Strays) → (m next).Strays

/-- A fragment that does nothing reports nothing. -/
private theorem strays_pure (a : α) : (pure a : Fragment α).Strays := fun _ hnext => hnext a

/-- Fragments in sequence report strays if each does. -/
theorem Strays.bind {f : α → Fragment β} (h : m.Strays) (hf : ∀ a, (f a).Strays) :
    (m >>= f).Strays := fun next hnext => h _ fun a => hf a next hnext

/-- A choice reports strays if both branches do. -/
private theorem strays_ite {p : Prop} [Decidable p] (h : m.Strays) (h' : n.Strays) :
    (if p then m else n).Strays := by
  split
  · exact h
  · exact h'

private theorem strays_ahead (n : Nat) : (ahead n).Strays := fun _ hnext => hnext

private theorem strays_stopped : stopped.Strays := fun _ hnext => hnext

/-- Consuming a token reports lexical errors at most. -/
private theorem strays_bump : bump.Strays := fun _ hnext => hnext ()

private theorem strays_isAtAny (set : TokenSet) : (isAtAny set).Strays :=
  (strays_ahead 0).bind fun _ => strays_pure _

/-- A token that may be missing is not reported. -/
private theorem strays_optionally (k : Kind) : (optionally k).Strays := by
  have hat : (isAt k).Strays := (strays_ahead 0).bind fun _ => strays_pure _
  have heat : (eat k).Strays := hat.bind fun _ =>
    strays_ite (strays_bump.bind fun _ => strays_pure true) (strays_pure false)
  exact heat.bind fun _ => strays_pure ()

/-- A complaint about a stray may be made. -/
private theorem strays_missing {problem : Problem} (h : problem.isStray = true) (what : String) :
    (missing problem what).Strays := fun _ hnext => ⟨h, hnext ()⟩

/-- A rule may be called that reports strays only. -/
private theorem strays_call {rule : Rule} (h : rule.isStray = true) : (call rule).Strays :=
  fun _ hnext => ⟨h, fun _ => hnext ()⟩

/-- A node reports what its body reports. -/
private theorem strays_node {k : Kind} {m : Fragment Unit} (h : m.Strays) : (node k m).Strays :=
  fun _ hnext => ⟨h _ fun _ => trivial, hnext ()⟩

/-- The assertion about where a rule begins reports nothing. -/
private theorem strays_entered (k : Kind) : (entered k).Strays := by
  intro next hnext found
  show (if found = k then next () else .fail _).Strays
  split
  · exact hnext ()
  · trivial

end Fragment

namespace Grammar

open Fragment

/-- Setting tokens aside reports nothing. -/
private theorem strays_discard (stops : TokenSet) : (discard stops).Strays :=
  strays_stopped.bind fun _ => strays_ite (strays_pure ()) <| (strays_isAtAny stops).bind fun _ =>
    strays_ite (strays_pure ()) <| strays_bump.bind fun _ => strays_call rfl

/-- An import between statements is a stray. -/
private theorem strays_importDecl : importDecl.Strays := by
  have hpath : (do
      if ← isAtAny .stringLiterals then bump
      else missing .expectedImportPath "a string literal"
      optionally .semiColon : Fragment Unit).Strays := (strays_isAtAny _).bind fun _ =>
    strays_ite (strays_bump.bind fun _ => strays_optionally _)
      ((strays_missing rfl _).bind fun _ => strays_optionally _)
  exact (strays_entered _).bind fun _ => strays_node (strays_bump.bind fun _ => hpath)

/-- What begins no statement is a stray. -/
private theorem strays_recoverStatement : recoverStatement.Strays :=
  strays_node ((strays_missing rfl _).bind fun _ => strays_bump.bind fun _ =>
    (strays_call rfl).bind fun _ => strays_optionally _)

end Grammar

namespace Rule

/-- The rules for what stands between statements call no others. -/
private theorem strays_script {rule : Rule} (h : rule.isStray = true) : rule.script.Strays := by
  cases rule with
  | importDecl => exact Grammar.strays_importDecl _ fun _ => trivial
  | discard stops => exact Grammar.strays_discard stops _ fun _ => trivial
  | _ => cases h

/-- A rule for what stands between statements reports strays only. -/
theorem run_strays {budget : Nat} {rule : Rule} {s s' : State} {a : Bool}
    (hrun : rule.run g budget s = .ok (a, s')) (h : rule.isStray = true) : s.Strays s' :=
  Rule.run_induct (P := fun rule s _ s' => rule.isStray = true → s.Strays s')
    (fun _ hrules _ _ _ _ hrun h => Script.run_strays hrules hrun (strays_script h)) hrun h

/-! ## Lists of statements -/

/-- A script that ends with the answer of a rule. -/
theorem run_call_done {rules : Rule → State → Reply} {rule : Rule} {s : State} {r : Bool × State}
    (h : (Script.call rule .done).run g rules s = .ok r) : rules rule s = .ok r := by
  obtain ⟨b, s₁, hcall, h⟩ := Script.run_call_eq_ok_iff.mp h
  cases h
  exact hcall

/-- A list of statements has come to its end, or goes on after something that is no statement, or
    after anything else. -/
theorem run_statements_cases {budget : Nat} {seen a : Bool} {s s' : State}
    (h : (statements seen).run g (budget + 1) s = .ok (a, s')) :
    (a = seen ∧ s.Strays s' ∧
      (s'.isStopped = true ∨ s'.ahead[0]?.getD .error = Kind.rCurly)) ∨
    ∃ seen' s₁, (statements seen').run g budget s₁ = .ok (a, s') ∧
      (seen' = true ∨ seen' = seen ∧ s.Strays s₁) := by
  -- The list ends with the parse, or at the closer.
  rw [run, script, Fragment.script, Grammar.statements, Fragment.bind_apply, Fragment.stopped,
    Script.run] at h
  split at h
  case isTrue hstopped =>
    cases h
    exact .inl ⟨rfl, State.strays_skip g s, .inl hstopped⟩
  case isFalse =>
  rw [Fragment.bind_apply, Fragment.current, Fragment.ahead] at h
  obtain ⟨k, s₁, hlook, h⟩ := Script.run_look_eq_ok_iff.mp h
  have hs₁ : s.Strays s₁ := (State.strays_skip g s).trans (State.strays_look hlook)
  split at h
  · cases h
    obtain ⟨hk, hahead, -⟩ := State.ahead_look hlook
    exact .inl ⟨rfl, hs₁, .inr (by rw [hahead, ← hk])⟩
  -- A semicolon is a stray.
  · obtain ⟨s₂, hbump, h⟩ := Script.run_bump_eq_ok_iff.mp h
    have hs₂ := (hs₁.trans (State.strays_remark rfl)).trans (State.strays_bump hbump)
    exact .inr ⟨seen, s₂, run_call_done h, .inr ⟨rfl, hs₂⟩⟩
  -- A declaration, which counts as a statement even though it is misplaced.
  · obtain ⟨s₂, -, h⟩ := Script.run_complain_eq_ok_iff.mp h
    obtain ⟨b, s₃, -, h⟩ := Script.run_call_eq_ok_iff.mp h
    exact .inr ⟨true, s₃, run_call_done h, .inl rfl⟩
  · obtain ⟨s₂, -, h⟩ := Script.run_complain_eq_ok_iff.mp h
    obtain ⟨b, s₃, -, h⟩ := Script.run_call_eq_ok_iff.mp h
    exact .inr ⟨true, s₃, run_call_done h, .inl rfl⟩
  · obtain ⟨s₂, -, h⟩ := Script.run_complain_eq_ok_iff.mp h
    obtain ⟨b, s₃, -, h⟩ := Script.run_call_eq_ok_iff.mp h
    exact .inr ⟨true, s₃, run_call_done h, .inl rfl⟩
  -- An import is a stray.
  · obtain ⟨s₂, hcomplain, h⟩ := Script.run_complain_eq_ok_iff.mp h
    obtain ⟨b, s₃, hcall, h⟩ := Script.run_call_eq_ok_iff.mp h
    have hs₃ := (hs₁.trans (State.strays_complain rfl hcomplain)).trans (run_strays hcall rfl)
    exact .inr ⟨seen, s₃, run_call_done h, .inr ⟨rfl, hs₃⟩⟩
  -- A statement, or tokens that start none.
  · split at h
    · obtain ⟨b, s₂, -, h⟩ := Script.run_call_eq_ok_iff.mp h
      exact .inr ⟨true, s₂, run_call_done h, .inl rfl⟩
    · obtain ⟨b, s₂, hnode, h⟩ := Script.run_node_eq_ok_iff.mp h
      have hstrays := Script.run_strays (fun _ _ _ _ => run_strays) hnode
        (Grammar.strays_recoverStatement (fun _ => .done true) fun _ => trivial).1
      have hs₂ : s₁.Strays s₂ := hstrays
      exact .inr ⟨seen, _, run_call_done h, .inr ⟨rfl, hs₁.trans hs₂⟩⟩

/-- A list of statements ends at a closing brace, or where the parse ends. -/
theorem run_statements_end {budget : Nat} {seen a : Bool} {s s' : State}
    (h : (statements seen).run g budget s = .ok (a, s')) :
    s'.isStopped = true ∨ s'.ahead[0]?.getD .error = Kind.rCurly := by
  induction budget generalizing seen s with
  | zero => cases h
  | succ budget ih =>
    obtain ⟨-, -, hend⟩ | ⟨seen', s₁, hmore, -⟩ := run_statements_cases h
    · exact hend
    · exact ih hmore

/-- A statement that was seen is not forgotten. -/
theorem run_statements_true {budget : Nat} {a : Bool} {s s' : State}
    (h : (statements true).run g budget s = .ok (a, s')) : a = true := by
  induction budget generalizing s with
  | zero => cases h
  | succ budget ih =>
    obtain ⟨ha, -⟩ | ⟨seen', s₁, hmore, rfl | ⟨rfl, -⟩⟩ := run_statements_cases h
    · exact ha
    · exact ih hmore
    · exact ih hmore

/-- If there was no statement, what was reported is wrong between statements. -/
theorem run_statements_false {budget : Nat} {seen : Bool} {s s' : State}
    (h : (statements seen).run g budget s = .ok (false, s')) : s.Strays s' := by
  induction budget generalizing seen s with
  | zero => cases h
  | succ budget ih =>
    obtain ⟨-, hstrays, -⟩ | ⟨seen', s₁, hmore, rfl | ⟨rfl, hstrays⟩⟩ := run_statements_cases h
    · exact hstrays
    · cases run_statements_true hmore
    · exact hstrays.trans (ih hmore)

end Rule

end ScriptTree
