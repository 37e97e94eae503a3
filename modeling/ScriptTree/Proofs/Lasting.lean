import ScriptTree.Proofs.Running

/-!
# What lasts through a run

Much of what is known of a run relates the state after it to the state before: reports are only
added, tokens are only taken from the front, the depth comes back to what it was.  Such a relation
is *stepwise* if it holds across each change that an operation makes, and then it holds across each
operation.  It *lasts* if it also comes through what a script puts around a body: a frame, a level
or a delimiter of its own.  Then it holds across every script and every rule.

## Key results

- `Script.run_lasting`: a relation that lasts holds across a script
- `Rule.run_lasting`: and across a rule
-/

namespace ScriptTree

namespace State

variable {g : Setting} {R : State → State → Prop} {s s' s₁ s₂ : State}

/-- A relation between the states before and after each change that an operation makes. -/
structure Stepwise (g : Setting) (R : State → State → Prop) : Prop where
  refl (s : State) : R s s
  trans {s s' s'' : State} (h : R s s') (h' : R s' s'') : R s s''
  skip (s : State) : R s (s.skip g)
  consume {s : State} {t : Token} {ts : List Token} (hrest : s.rest = t :: ts)
    (ht : t.kind.isSkipped = false) : R s (s.consume t ts)
  reportAt (s : State) (o : Nat) (d : Diagnostic) : R s (s.reportAt g o d)
  withPatience (s : State) (p : Nat) : R s { s with patience := p }

namespace Stepwise

/-- A relation that single steps keep is kept by a lookahead. -/
theorem look (hR : Stepwise g R) {n : Nat} {k : Kind} (h : s.look g n = .ok (k, s')) : R s s' := by
  obtain ⟨-, -, rfl⟩ := look_eq_ok_iff.mp h
  exact hR.trans (hR.skip s) (hR.withPatience _ _)

/-- A relation that single steps keep is kept when a token is consumed. -/
theorem bump (hR : Stepwise g R) (h : s.bump g = .ok s') : R s s' := by
  obtain ⟨t, ts, hrest, rfl⟩ := bump_eq_ok_iff.mp h
  have ht : t.kind.isSkipped = false := Token.isSkipped_of_dropWhile (skip_rest ▸ hrest)
  exact hR.trans (hR.skip s) (hR.consume hrest ht)

/-- A relation that single steps keep is kept by a complaint. -/
theorem complain (hR : Stepwise g R) {x : Complaint} (h : s.complain g x = .ok s') : R s s' := by
  obtain ⟨p, d, rfl, -⟩ := complain_eq_ok h
  exact hR.trans (hR.skip s) (hR.trans (hR.withPatience _ p) (hR.reportAt _ _ d))

/-- A relation that single steps keep is kept by a warning. -/
theorem remark (hR : Stepwise g R) (problem : Problem) : R s (s.remark g problem) :=
  hR.trans (hR.skip s) (hR.reportAt _ _ _)

/-- The opener is noted before it is consumed. -/
theorem openDelimiter (hR : Stepwise g R) {d : Delimiter} (h : s.openDelimiter g d = .ok s') :
    R { s.skip g with delimiters := (d, (s.skip g).frontSpan g) :: (s.skip g).delimiters } s' :=
  hR.bump h

/-- The delimiter is off before its closer is looked for. -/
theorem closeDelimiter (hR : Stepwise g R) {d : Delimiter} {construct : String}
    (h : s.closeDelimiter g d construct = .ok s') :
    R { s with delimiters := s.delimiters.tail } s' := by
  obtain ⟨found, s₁, hlook, hclosed⟩ := closeDelimiter_eq_ok h
  have hlooked := hR.look hlook
  obtain ⟨-, hbump⟩ | ⟨-, p, dg, -, rfl⟩ := hclosed
  · exact hR.trans hlooked (hR.bump hbump)
  · exact hR.trans hlooked (hR.trans (hR.withPatience _ p) (hR.reportAt _ _ dg))

/-- A relation that single steps keep is kept by the report on an empty block. -/
theorem closeEmpty (hR : Stepwise g R) {ifEmpty : Option Problem} {answer : Bool} {opener : Span}
    (h : s.closeEmpty g ifEmpty answer opener = .ok s') : R s s' := by
  obtain ⟨-, rfl⟩ | ⟨problem, -, -, h⟩ := closeEmpty_eq_ok_iff.mp h
  · exact hR.refl _
  · obtain ⟨d, rfl, -⟩ := remarkSince_report h
    exact hR.reportAt s _ d

end Stepwise

/-- A stepwise relation that comes through a body, whatever the script puts around it. -/
structure Lasting (g : Setting) (R : State → State → Prop) : Prop extends Stepwise g R where
  drain (s : State) : R s s.drain
  /-- A body that had a frame of its own is put behind what stood in the frame before. -/
  regrouped {s s₁ : State} {f : Array Tree} (h : R { s with frame := #[] } s₁)
    (hf : Tree.leavesOf f.toList =
      Tree.leavesOf s.frame.toList ++ Tree.leavesOf s₁.frame.toList) : R s { s₁ with frame := f }
  refused {s s₁ : State} (henter : s.enter g = (false, s₁)) : R s s₁
  granted {s s₁ s₂ : State} (henter : s.enter g = (true, s₁)) (h : R s₁ s₂) : R s s₂.leave
  delimited {s s₁ : State} {x : Delimiter × Span}
    (h : R { s with delimiters := x :: s.delimiters } s₁) :
    R s { s₁ with delimiters := s₁.delimiters.tail }

namespace Lasting

/-- What lasts through the body of a node lasts when the node is put into the frame. -/
theorem pushNode (hR : Lasting g R) (k : Kind) (h : R { s.drain with frame := #[] } s₁) :
    R s { s₁ with frame := s.drain.frame.push (.node k s₁.frame.toList) } :=
  hR.trans (hR.drain s) (hR.regrouped h (by simp [Tree.leavesOf_eq_flatMap, Tree.leaves]))

/-- What lasts through a group lasts when its trees are put into the frame. -/
theorem appendFrame (hR : Lasting g R) (h : R { s.drain with frame := #[] } s₁) :
    R s { s₁ with frame := s.drain.frame ++ s₁.frame } :=
  hR.trans (hR.drain s) (hR.regrouped h (by simp [Tree.leavesOf_eq_flatMap]))

/-- What lasts does so when the frame becomes one node. -/
theorem wrapped (hR : Lasting g R) (k : Kind) :
    R s { s with frame := #[.node k s.frame.toList] } := by
  -- The node holds the frame itself, and nothing comes behind it.
  have hemptied : R { s with frame := #[] } { s with frame := #[] } := hR.refl _
  have hwrapped := hR.regrouped (f := #[.node k s.frame.toList]) hemptied
    (by simp [Tree.leavesOf, Tree.leaves])
  exact hwrapped

/-- Whatever goes on between an opener and its closer. -/
theorem enclosed (hR : Lasting g R) {d : Delimiter} {construct : String}
    (hopen : s.openDelimiter g d = .ok s₁) (hbody : R s₁ s₂)
    (hclose : s₂.closeDelimiter g d construct = .ok s') : R s s' :=
  hR.trans (hR.skip s) (hR.trans (hR.delimited (hR.trans (hR.openDelimiter hopen) hbody))
    (hR.closeDelimiter hclose))

end Lasting

end State

variable {g : Setting} {R : State → State → Prop}

/-- A relation that lasts holds across a script if it holds across the rules that it calls. -/
theorem Script.run_lasting (hR : State.Lasting g R) {rules : Rule → State → Reply}
    (hrules : ∀ rule s a s', rules rule s = .ok (a, s') → R s s') {script : Script} {s s' : State}
    {a : Bool} (h : script.run g rules s = .ok (a, s')) : R s s' := by
  -- Induction on the script.
  induction script generalizing s s' a with
  | done answer =>
    cases h
    exact hR.refl s
  | fail fault => cases h
  | look n next ih =>
    obtain ⟨k, s₁, hlook, h⟩ := run_look_eq_ok_iff.mp h
    exact hR.trans (hR.look hlook) (ih k h)
  | text next ih => exact hR.trans (hR.skip s) (ih _ h)
  | stopped next ih => exact hR.trans (hR.skip s) (ih _ h)
  | exhausted next ih => exact ih _ h
  | bump next ih =>
    obtain ⟨s₁, hbump, h⟩ := run_bump_eq_ok_iff.mp h
    exact hR.trans (hR.bump hbump) (ih h)
  | flush next ih => exact hR.trans (hR.skip s) (hR.trans (hR.drain _) (ih h))
  | complain x next ih =>
    obtain ⟨s₁, hcomplain, h⟩ := run_complain_eq_ok_iff.mp h
    exact hR.trans (hR.complain hcomplain) (ih h)
  | remark problem next ih => exact hR.trans (hR.remark problem) (ih h)
  | node k body next ihbody ihnext =>
    obtain ⟨b, s₁, hbody, h⟩ := run_node_eq_ok_iff.mp h
    exact hR.trans (hR.pushNode k (ihbody hbody)) (ihnext h)
  | group body next ihbody ihnext =>
    obtain ⟨b, s₁, hbody, h⟩ := run_group_eq_ok_iff.mp h
    exact hR.trans (hR.appendFrame (ihbody hbody)) (ihnext h)
  | wrap k body next ihbody ihnext =>
    obtain ⟨b, s₁, hbody, h⟩ := run_wrap_eq_ok_iff.mp h
    exact hR.trans (ihbody hbody) (hR.trans (hR.wrapped k) (ihnext h))
  | deeper body next ihbody ihnext =>
    -- A level that is refused skips the body.
    obtain ⟨s₁, henter, h⟩ | ⟨s₁, b, s₂, henter, hbody, h⟩ := run_deeper_eq_ok_iff.mp h
    · exact hR.trans (hR.refused henter) (ihnext _ h)
    · exact hR.trans (hR.granted henter (ihbody hbody)) (ihnext _ h)
  | enclosed d construct ifEmpty body next ihbody ihnext =>
    obtain ⟨s₁, b, s₂, s₃, s₄, hopen, hbody, hclose, hempty, h⟩ := run_enclosed_eq_ok_iff.mp h
    exact hR.trans (hR.enclosed hopen (ihbody hbody) hclose)
      (hR.trans (hR.closeEmpty hempty) (ihnext h))
  | call rule next ih =>
    obtain ⟨b, s₁, hcall, h⟩ := run_call_eq_ok_iff.mp h
    exact hR.trans (hrules _ _ _ _ hcall) (ih _ h)

/-- A relation that lasts holds across every rule. -/
theorem Rule.run_lasting (hR : State.Lasting g R) {budget : Nat} {rule : Rule} {s s' : State}
    {a : Bool} (h : rule.run g budget s = .ok (a, s')) : R s s' :=
  Rule.run_induct (P := fun _ s _ s' => R s s')
    (fun _ hrules _ _ _ _ hrun => Script.run_lasting hR hrules hrun) h

end ScriptTree
