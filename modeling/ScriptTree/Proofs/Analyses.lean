import ScriptTree.Proofs.View

/-!
# Analyses of scripts

Much of what is proved of the grammar is decided on its scripts: a predicate goes through a script,
keeps account of what is known on the way, and demands something of each step.  Such an *analysis*
is sound if it passes from a script to what follows its first step, or, where that encloses a body,
to the body, whose outcome must then allow the analysis to go on behind it.

An analysis says of a script, a state and a claim (`Script.Analysis.Fine`) that every run of the
script from the state ends as claimed.  It may rely on something that is known of the state in the
end and therefore was so all along (`Last`), as that no limit was met.

The steps that neither consume nor enclose anything are taken together (`Script.Step`): most
analyses need not tell them apart.

## Key results

- `Script.run_sound`: a script that an analysis finds fine runs as claimed
-/

namespace ScriptTree

/-- The first step of a script that consumes and encloses nothing: what follows the step, and the
    state after it. -/
inductive Script.Step (g : Setting) : Script → State → Script → State → Prop
  | look {n : Nat} {next : Kind → Script} {s s' : State} {k : Kind}
      (hlook : s.look g n = .ok (k, s')) : Step g (.look n next) s (next k) s'
  | text (next : String → Script) (s : State) :
      Step g (.text next) s (next (s.skip g).frontText) (s.skip g)
  | stopped (next : Bool → Script) (s : State) :
      Step g (.stopped next) s (next (s.skip g).isStopped) (s.skip g)
  | exhausted (next : Bool → Script) (s : State) :
      Step g (.exhausted next) s (next s.exhausted.isSome) s
  | flush (next : Script) (s : State) : Step g (.flush next) s next (s.skip g).drain
  | complain {x : Complaint} {next : Script} {s s' : State}
      (hcomplain : s.complain g x = .ok s') : Step g (.complain x next) s next s'
  | remark (problem : Problem) (next : Script) (s : State) :
      Step g (.remark problem next) s next (s.remark g problem)

/-- Such a step leaves what is ahead and what was placed as it is. -/
theorem Script.Step.still {g : Setting} {script next : Script} {s s' : State}
    (h : Step g script s next s') (hwaits : s.Waits) : s'.Waits ∧ s'.reading = s.reading := by
  cases h with
  | look hlook =>
    obtain ⟨-, hstill⟩ := hwaits.look hlook
    exact hstill
  | text | stopped => exact ⟨hwaits.skip, State.reading_skip⟩
  | exhausted => exact ⟨hwaits, rfl⟩
  | flush =>
    refine ⟨State.waits_drain, ?_⟩
    rw [State.reading_drain hwaits.skip, State.reading_skip]
  | complain hcomplain => exact hwaits.complain hcomplain
  | remark problem => exact hwaits.remark problem

/-- What lasts through every run holds across such a step. -/
theorem Script.Step.lasting {g : Setting} {R : State → State → Prop} (hR : State.Lasting g R)
    {script next : Script} {s s' : State} (h : Step g script s next s') : R s s' := by
  cases h with
  | look hlook => exact hR.look hlook
  | text | stopped => exact hR.skip s
  | exhausted => exact hR.refl s
  | flush => exact hR.trans (hR.skip s) (hR.drain _)
  | complain hcomplain => exact hR.complain hcomplain
  | remark problem => exact hR.remark problem

/-- A property of scripts that shows how they run. -/
structure Script.Analysis (g : Setting) (rules : Rule → State → Reply) where
  /-- From the state, the script only leads to what is claimed. -/
  Fine : Script → State → (Bool → State → Prop) → Prop
  /-- What is known of the state in the end. -/
  Last : State → Prop
  /-- A relation across which it goes back. -/
  Before : State → State → Prop
  lasting : State.Lasting g Before
  before (rule : Rule) (s : State) (a : Bool) (s' : State) (hcall : rules rule s = .ok (a, s')) :
    Before s s'
  back {s s' : State} (h : Before s s') (hlast : Last s') : Last s
  /-- What encloses a body has no part in it. -/
  outer {s : State} {frame : Array Tree} {delimiters : List (Delimiter × Span)}
    {depth patience : Nat} (hlast : Last { s with
      frame := frame, delimiters := delimiters, depth := depth, patience := patience }) : Last s
  done {a : Bool} {s : State} {goal : Bool → State → Prop} (h : Fine (.done a) s goal) : goal a s
  step {script next : Script} {s s' : State} {goal : Bool → State → Prop}
    (hstep : Step g script s next s') (hlast : Last s') (h : Fine script s goal) : Fine next s' goal
  bump {next : Script} {s s' : State} {goal : Bool → State → Prop} (hbump : s.bump g = .ok s')
    (hlast : Last s') (h : Fine (.bump next) s goal) : Fine next s' goal
  node {k : Kind} {body next : Script} {s : State} {goal : Bool → State → Prop}
    (h : Fine (.node k body next) s goal) : Fine body { s.drain with frame := #[] } fun b s₁ =>
      body.run g rules { s.drain with frame := #[] } = .ok (b, s₁) →
        let s₂ := { s₁ with frame := s.drain.frame.push (.node k s₁.frame.toList) }
        Last s₂ → Fine next s₂ goal
  group {body next : Script} {s : State} {goal : Bool → State → Prop}
    (h : Fine (.group body next) s goal) : Fine body { s.drain with frame := #[] } fun b s₁ =>
      body.run g rules { s.drain with frame := #[] } = .ok (b, s₁) →
        let s₂ := { s₁ with frame := s.drain.frame ++ s₁.frame }
        Last s₂ → Fine next s₂ goal
  wrap {k : Kind} {body next : Script} {s : State} {goal : Bool → State → Prop}
    (h : Fine (.wrap k body next) s goal) : Fine body s fun b s₁ =>
      body.run g rules s = .ok (b, s₁) →
        let s₂ := { s₁ with frame := #[.node k s₁.frame.toList] }
        Last s₂ → Fine next s₂ goal
  refused {body : Script} {next : Bool → Script} {s s₁ : State} {goal : Bool → State → Prop}
    (henter : s.enter g = (false, s₁)) (hlast : Last s₁) (h : Fine (.deeper body next) s goal) :
    Fine (next false) s₁ goal
  granted {body : Script} {next : Bool → Script} {s s₁ : State} {goal : Bool → State → Prop}
    (henter : s.enter g = (true, s₁)) (h : Fine (.deeper body next) s goal) :
    Fine body s₁ fun b s₂ =>
      body.run g rules s₁ = .ok (b, s₂) → Last s₂.leave → Fine (next true) s₂.leave goal
  enclosed {d : Delimiter} {construct : String} {ifEmpty : Option Problem} {body next : Script}
    {s s₁ : State} {goal : Bool → State → Prop} (hopen : s.openDelimiter g d = .ok s₁)
    (h : Fine (.enclosed d construct ifEmpty body next) s goal) : Fine body s₁ fun b s₂ =>
      body.run g rules s₁ = .ok (b, s₂) → ∀ s₃ s₄, s₂.closeDelimiter g d construct = .ok s₃ →
        s₃.closeEmpty g ifEmpty b ((s.skip g).frontSpan g) = .ok s₄ → Last s₄ → Fine next s₄ goal
  call {rule : Rule} {next : Bool → Script} {s s₁ : State} {b : Bool}
    {goal : Bool → State → Prop} (hcall : rules rule s = .ok (b, s₁)) (hlast : Last s₁)
    (h : Fine (.call rule next) s goal) : Fine (next b) s₁ goal

variable {g : Setting} {rules : Rule → State → Reply}

/-- What is known in the end of a script was so in the beginning. -/
private theorem Script.Analysis.back_run (analysis : Script.Analysis g rules) {script : Script}
    {s s' : State} {a : Bool} (hrun : script.run g rules s = .ok (a, s'))
    (hlast : analysis.Last s') : analysis.Last s :=
  analysis.back (run_lasting analysis.lasting analysis.before hrun) hlast

/-- A script that an analysis finds fine runs as claimed. -/
theorem Script.run_sound (analysis : Script.Analysis g rules) {script : Script} {s s' : State}
    {a : Bool} {goal : Bool → State → Prop} (hfine : analysis.Fine script s goal)
    (hrun : script.run g rules s = .ok (a, s')) (hlast : analysis.Last s') : goal a s' := by
  -- The claim is general, since that of a body is that the analysis goes on behind it.
  induction script generalizing s s' a goal with
  | done answer =>
    cases hrun
    exact analysis.done hfine
  | fail fault => cases hrun
  | look n next ih =>
    obtain ⟨k, s₁, hlook, hrun⟩ := run_look_eq_ok_iff.mp hrun
    exact ih k (analysis.step (.look hlook) (analysis.back_run hrun hlast) hfine) hrun hlast
  | text next ih =>
    exact ih _ (analysis.step (.text next s) (analysis.back_run hrun hlast) hfine) hrun hlast
  | stopped next ih =>
    exact ih _ (analysis.step (.stopped next s) (analysis.back_run hrun hlast) hfine) hrun hlast
  | exhausted next ih =>
    exact ih _ (analysis.step (.exhausted next s) (analysis.back_run hrun hlast) hfine) hrun hlast
  | bump next ih =>
    obtain ⟨s₁, hbump, hrun⟩ := run_bump_eq_ok_iff.mp hrun
    exact ih (analysis.bump hbump (analysis.back_run hrun hlast) hfine) hrun hlast
  | flush next ih =>
    exact ih (analysis.step (.flush next s) (analysis.back_run hrun hlast) hfine) hrun hlast
  | complain x next ih =>
    obtain ⟨s₁, hcomplain, hrun⟩ := run_complain_eq_ok_iff.mp hrun
    exact ih (analysis.step (.complain hcomplain) (analysis.back_run hrun hlast) hfine) hrun hlast
  | remark problem next ih =>
    exact ih (analysis.step (.remark problem next s) (analysis.back_run hrun hlast) hfine) hrun
      hlast
  -- The claim of a body is that its node, finished, satisfies the analysis of what follows.
  | node k body next ihbody ihnext =>
    obtain ⟨b, s₁, hbody, hrun⟩ := run_node_eq_ok_iff.mp hrun
    have hlast₂ := analysis.back_run hrun hlast
    have hlast₁ : analysis.Last s₁ := analysis.outer hlast₂
    exact ihnext (ihbody (analysis.node hfine) hbody hlast₁ hbody hlast₂) hrun hlast
  | group body next ihbody ihnext =>
    obtain ⟨b, s₁, hbody, hrun⟩ := run_group_eq_ok_iff.mp hrun
    have hlast₂ := analysis.back_run hrun hlast
    have hlast₁ : analysis.Last s₁ := analysis.outer hlast₂
    exact ihnext (ihbody (analysis.group hfine) hbody hlast₁ hbody hlast₂) hrun hlast
  | wrap k body next ihbody ihnext =>
    obtain ⟨b, s₁, hbody, hrun⟩ := run_wrap_eq_ok_iff.mp hrun
    have hlast₂ := analysis.back_run hrun hlast
    have hlast₁ : analysis.Last s₁ := analysis.outer hlast₂
    exact ihnext (ihbody (analysis.wrap hfine) hbody hlast₁ hbody hlast₂) hrun hlast
  -- A level is refused, or its body runs one deeper.
  | deeper body next ihbody ihnext =>
    obtain ⟨s₁, henter, hrun⟩ | ⟨s₁, b, s₂, henter, hbody, hrun⟩ := run_deeper_eq_ok_iff.mp hrun
    · exact ihnext _ (analysis.refused henter (analysis.back_run hrun hlast) hfine) hrun hlast
    · have hlast₃ := analysis.back_run hrun hlast
      have hlast₂ : analysis.Last s₂ := analysis.outer hlast₃
      exact ihnext _ (ihbody (analysis.granted henter hfine) hbody hlast₂ hbody hlast₃) hrun hlast
  -- What the delimiter does behind the body is part of the claim of the body.
  | enclosed d construct ifEmpty body next ihbody ihnext =>
    obtain ⟨s₁, b, s₂, s₃, s₄, hopen, hbody, hclose, hempty, hrun⟩ := run_enclosed_eq_ok_iff.mp hrun
    have hlast₄ := analysis.back_run hrun hlast
    have hlast₃ := analysis.back (analysis.lasting.closeEmpty hempty) hlast₄
    have hlast₂ : analysis.Last s₂ :=
      analysis.outer (analysis.back (analysis.lasting.closeDelimiter hclose) hlast₃)
    exact ihnext (ihbody (analysis.enclosed hopen hfine) hbody hlast₂ hbody s₃ s₄ hclose hempty
      hlast₄) hrun hlast
  | call rule next ih =>
    obtain ⟨b, s₁, hcall, hrun⟩ := run_call_eq_ok_iff.mp hrun
    exact ih b (analysis.call hcall (analysis.back_run hrun hlast) hfine) hrun hlast

end ScriptTree
