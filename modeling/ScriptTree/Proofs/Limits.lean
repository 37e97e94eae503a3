import ScriptTree.Proofs.Strictness

/-!
# Limits

A parse that meets none of its limits does not depend on them: under looser ones it goes through the
same states, up to the steps that are left (`State.Loosened`).

## Key results

- `Rule.run_loosened`: a rule that met no limit does the same under looser ones
- `parse_loosened`: so does a parse
- `parse_stepLimit`: how many steps a parse takes
-/

namespace ScriptTree

/-- The first limit is at most the second one.  No limit counts as an infinite one. -/
def Tighter (l l' : Option Nat) : Prop := ∀ n' ∈ l', ∃ n ∈ l, n ≤ n'

/-- The same setting with another bound on the nesting. -/
def Setting.withDepth (g : Setting) (l : Option Nat) : Setting := { g with depthLimit := l }

namespace State

variable {g : Setting} {l : Option Nat} {s s' t : State}

/-- The state with other steps left. -/
def withSteps (s : State) (e : Option Nat) : State := { s with steps := e }

/-- The same state with at least as many steps left. -/
def Loosened (s t : State) : Prop := ∃ e, Tighter s.steps e ∧ t = s.withSteps e

/-- What does not touch the steps keeps them. -/
theorem Loosened.map (h : s.Loosened t) {f : State → State} (hsteps : (f s).steps = s.steps)
    (hf : ∀ e, f (s.withSteps e) = (f s).withSteps e) : (f s).Loosened (f t) := by
  obtain ⟨e, he, rfl⟩ := h
  exact ⟨e, by rwa [hsteps], hf e⟩

/-- With looser limits the frame is the same. -/
theorem Loosened.frame (h : s.Loosened t) : t.frame = s.frame := by
  obtain ⟨e, -, rfl⟩ := h
  rfl

/-- The same children are put into the frame. -/
theorem Loosened.withFrame (h : s.Loosened t) {frame frame' : Array Tree} (heq : frame' = frame) :
    ({ s with frame := frame } : State).Loosened { t with frame := frame' } := by
  rw [heq]
  exact h.map (f := fun r => { r with frame := frame }) rfl fun _ => rfl

/-! ## Operations -/

/-- Both place the tokens that wait. -/
theorem Loosened.drain (h : s.Loosened t) : s.drain.Loosened t.drain := h.map rfl fun _ => rfl

/-- Skipping does not depend on limits. -/
private theorem skip_withSteps (s : State) (g : Setting) (l e : Option Nat) :
    (s.withSteps e).skip (g.withDepth l) = (s.skip g).withSteps e := by
  rw [skip_eq, skip_eq]
  rfl

/-- A report does not depend on limits. -/
private theorem reportAt_withSteps (s : State) (g : Setting) (l e : Option Nat) (o : Nat)
    (d : Diagnostic) :
    (s.withSteps e).reportAt (g.withDepth l) o d = (s.reportAt g o d).withSteps e := by
  have hsame : (s.withSteps e).halted = s.halted ∧ (s.withSteps e).reported = s.reported :=
    ⟨rfl, rfl⟩
  unfold reportAt
  rw [hsame.1, hsame.2]
  split <;> rfl

/-- Both skip the same. -/
theorem Loosened.skip (h : s.Loosened t) (l : Option Nat) :
    (s.skip g).Loosened (t.skip (g.withDepth l)) := by
  obtain ⟨e, he, rfl⟩ := h
  exact ⟨e, by rwa [skip_steps], skip_withSteps s g l e⟩

/-- Both report the same. -/
theorem Loosened.reportAt (h : s.Loosened t) (l : Option Nat) (o : Nat) (d : Diagnostic) :
    (s.reportAt g o d).Loosened (t.reportAt (g.withDepth l) o d) := by
  obtain ⟨e, he, rfl⟩ := h
  exact ⟨e, by rwa [reportAt_steps], reportAt_withSteps s g l e o d⟩

/-- Both see the same ahead. -/
theorem Loosened.look (h : s.Loosened t) (l : Option Nat) {n : Nat} {k : Kind}
    (hlook : s.look g n = .ok (k, s')) :
    ∃ t', t.look (g.withDepth l) n = .ok (k, t') ∧ s'.Loosened t' := by
  obtain ⟨hpatience, hk, rfl⟩ := look_eq_ok_iff.mp hlook
  obtain ⟨e, he, rfl⟩ := h
  refine ⟨_, look_eq_ok_iff.mpr ⟨hpatience, hk, rfl⟩, e, by simpa using he, ?_⟩
  rw [skip_withSteps]
  rfl

/-- Consuming a token takes a step, if there is one. -/
private theorem spend_of_ne (h : s.steps ≠ some 0) :
    s.spend = s.withSteps (s.steps.map (· - 1)) := by
  unfold spend withSteps
  split
  case h_1 hsteps => rw [hsteps, Option.map_none, ← hsteps]
  case h_2 hsteps => exact absurd hsteps h
  case h_3 n hsteps => rw [hsteps, Option.map_some, Nat.succ_sub_one]

/-- A parse that can go on had a step for the token. -/
private theorem steps_ne_of_consume {u : Token} {us : List Token}
    (h : (s.consume u us).exhausted = none) : s.steps ≠ some 0 := by
  intro hsteps
  unfold State.consume spend at h
  cases hexhausted : s.exhausted <;> simp [hsteps, hexhausted, drain] at h

/-- Both consume a token, if the tighter limit allows it. -/
theorem Loosened.consume (h : s.Loosened t) {u : Token} {us : List Token}
    (hexhausted : (s.consume u us).exhausted = none) :
    (s.consume u us).Loosened (t.consume u us) := by
  -- The looser budget is the tighter one with an excess.
  obtain ⟨e, he, rfl⟩ := h
  have hsteps := steps_ne_of_consume hexhausted
  have hsteps' : (s.withSteps e).steps ≠ some 0 := by
    intro hzero
    obtain ⟨n, hn, hle⟩ := he 0 hzero
    rw [Nat.le_zero.mp hle] at hn
    exact hsteps hn
  unfold State.consume
  rw [spend_of_ne hsteps, spend_of_ne hsteps']
  refine ⟨e.map (· - 1), ?_, rfl⟩
  intro n' hn'
  obtain ⟨m', hm', rfl⟩ := Option.map_eq_some_iff.mp hn'
  obtain ⟨m, hm, hle⟩ := he m' hm'
  exact ⟨m - 1, Option.map_eq_some_iff.mpr ⟨m, hm, rfl⟩, Nat.sub_le_sub_right hle 1⟩

/-- Both consume the current token, if the tighter limit allows it. -/
theorem Loosened.bump (h : s.Loosened t) (l : Option Nat) (hbump : s.bump g = .ok s')
    (hexhausted : s'.exhausted = none) :
    ∃ t', t.bump (g.withDepth l) = .ok t' ∧ s'.Loosened t' := by
  obtain ⟨u, us, hrest, rfl⟩ := bump_eq_ok_iff.mp hbump
  have hskip := h.skip (g := g) l
  refine ⟨_, bump_eq_ok_iff.mpr ⟨u, us, ?_, rfl⟩, hskip.consume hexhausted⟩
  obtain ⟨e, -, heq⟩ := hskip
  rw [heq]
  exact hrest

/-- Both eat the token or leave it, if the tighter limit allows it. -/
theorem Loosened.eat (h : s.Loosened t) (l : Option Nat) {k : Kind} {b : Bool}
    (heat : s.eat g k = .ok (b, s')) (hexhausted : b = true → s'.exhausted = none) :
    ∃ t', t.eat (g.withDepth l) k = .ok (b, t') ∧ s'.Loosened t' := by
  obtain ⟨found, s₁, hlook, hrest⟩ := eat_eq_ok_iff.mp heat
  obtain ⟨t₁, hlook', h₁⟩ := h.look l hlook
  obtain ⟨hk, rfl, hbump⟩ | ⟨hk, rfl, rfl⟩ := hrest
  · obtain ⟨t₂, hbump', h₂⟩ := h₁.bump l hbump (hexhausted rfl)
    exact ⟨t₂, eat_eq_ok_iff.mpr ⟨found, t₁, hlook', .inl ⟨hk, rfl, hbump'⟩⟩, h₂⟩
  · exact ⟨t₁, eat_eq_ok_iff.mpr ⟨found, t₁, hlook', .inr ⟨hk, rfl, rfl⟩⟩, h₁⟩

/-- Both describe the current token alike. -/
theorem Loosened.describeFront (h : s.Loosened t) (l : Option Nat) {found : String}
    (hfound : s.describeFront g = .ok (found, s')) :
    ∃ t', t.describeFront (g.withDepth l) = .ok (found, t') ∧ s'.Loosened t' := by
  have hskip := h.skip (g := g) l
  -- The front does not depend on the budget.
  have hrest : (t.skip (g.withDepth l)).rest = (s.skip g).rest := by
    obtain ⟨e, -, heq⟩ := hskip
    rw [heq]
    rfl
  unfold State.describeFront at hfound ⊢
  dsimp only at hfound ⊢
  rw [hrest]
  split at hfound
  · cases hfound
    exact ⟨_, rfl, hskip⟩
  · obtain ⟨⟨k, s₁⟩, hlook, hfound⟩ := bind_eq_ok_iff.mp hfound
    obtain ⟨t₁, hlook', h₁⟩ := hskip.look l hlook
    cases hfound
    exact ⟨t₁, bind_eq_ok_iff.mpr ⟨_, hlook', rfl⟩, h₁⟩

/-- Both complain, or drop the complaint. -/
theorem Loosened.complain (h : s.Loosened t) (l : Option Nat) {x : Complaint}
    (hcomplain : s.complain g x = .ok s') :
    ∃ t', t.complain (g.withDepth l) x = .ok t' ∧ s'.Loosened t' := by
  -- The description agrees, and so does the region it is reported at.
  obtain ⟨⟨found, s₁⟩, hfound, hcomplain⟩ := bind_eq_ok_iff.mp hcomplain
  obtain ⟨t₁, hfound', h₁⟩ := h.describeFront l hfound
  have hreport := fun o d => h₁.reportAt (g := g) l o d
  obtain ⟨e, -, rfl⟩ := h₁
  have hregion : (s₁.withSteps e).region (g.withDepth l) = s₁.region g := rfl
  dsimp only at hcomplain
  split at hcomplain
  · next region hsome =>
    cases hcomplain
    refine ⟨_, bind_eq_ok_iff.mpr ⟨_, hfound', ?_⟩, hreport _ _⟩
    dsimp only
    rw [hregion, hsome]
    rfl
  · cases hcomplain

/-- Both find the expected token, or complain. -/
theorem Loosened.expect (h : s.Loosened t) (l : Option Nat) {k : Kind} {what : String} {b : Bool}
    (hexpect : s.expect g k what = .ok (b, s')) (hexhausted : s'.exhausted = none) :
    ∃ t', t.expect (g.withDepth l) k what = .ok (b, t') ∧ s'.Loosened t' := by
  obtain ⟨⟨eaten, s₁⟩, heat, hexpect⟩ := bind_eq_ok_iff.mp hexpect
  -- The token is eaten in both runs or missing in both.
  cases eaten with
  | true =>
    cases hexpect
    obtain ⟨t₁, heat', h₁⟩ := h.eat l heat fun _ => hexhausted
    exact ⟨t₁, bind_eq_ok_iff.mpr ⟨_, heat', rfl⟩, h₁⟩
  | false =>
    obtain ⟨s₂, hcomplain, hexpect⟩ := bind_eq_ok_iff.mp hexpect
    cases hexpect
    obtain ⟨t₁, heat', h₁⟩ := h.eat l heat (by simp)
    obtain ⟨t₂, hcomplain', h₂⟩ := h₁.complain l hcomplain
    exact ⟨t₂, bind_eq_ok_iff.mpr ⟨_, heat', bind_eq_ok_iff.mpr ⟨_, hcomplain', rfl⟩⟩, h₂⟩

/-- Both report a delimiter that is not closed. -/
theorem Loosened.reportUnclosed (h : s.Loosened t) (l : Option Nat) {d : Delimiter}
    {construct : String} {opener : Span}
    (hreport : s.reportUnclosed g d construct opener = .ok s') :
    ∃ t', t.reportUnclosed (g.withDepth l) d construct opener = .ok t' ∧ s'.Loosened t' := by
  have hreported := fun o d => h.reportAt (g := g) l o d
  obtain ⟨e, -, rfl⟩ := h
  -- The span at the front does not depend on the budget.
  have hspan : (s.withSteps e).frontSpan (g.withDepth l) = s.frontSpan g := rfl
  unfold State.reportUnclosed at hreport ⊢
  rw [hspan]
  dsimp only at hreport ⊢
  split at hreport
  · cases hreport
    exact ⟨_, rfl, hreported _ _⟩
  · cases hreport

/-- Both open a delimiter, if the tighter limit allows it. -/
theorem Loosened.openDelimiter (h : s.Loosened t) (l : Option Nat) {d : Delimiter}
    (hopen : s.openDelimiter g d = .ok s') (hexhausted : s'.exhausted = none) :
    ∃ t', t.openDelimiter (g.withDepth l) d = .ok t' ∧ s'.Loosened t' := by
  have hpushed := (h.skip (g := g) l).map (f := fun r =>
    { r with delimiters := (d, r.frontSpan g) :: r.delimiters }) rfl fun _ => rfl
  exact hpushed.bump l hopen hexhausted

/-- Both close a delimiter, or report it, if the tighter limit allows it. -/
theorem Loosened.closeDelimiter (h : s.Loosened t) (l : Option Nat) {d : Delimiter}
    {construct : String} (hclose : s.closeDelimiter g d construct = .ok s')
    (hexhausted : s'.exhausted = none) :
    ∃ t', t.closeDelimiter (g.withDepth l) d construct = .ok t' ∧ s'.Loosened t' := by
  have hpopped := h.map (f := fun r => { r with delimiters := r.delimiters.tail }) rfl fun _ => rfl
  have hdelimiters : t.delimiters = s.delimiters := by
    obtain ⟨e, -, rfl⟩ := h
    rfl
  obtain ⟨hpaired, closed, s₁, heat, hclosed⟩ := closeDelimiter_eq_ok_iff.mp hclose
  rw [← hdelimiters] at hpaired
  -- The closer is there, or it is missing.
  obtain ⟨rfl, rfl⟩ | ⟨rfl, hmissing⟩ := hclosed
  · obtain ⟨t₁, heat', h₁⟩ := hpopped.eat l heat fun _ => hexhausted
    exact ⟨t₁, closeDelimiter_eq_ok_iff.mpr ⟨hpaired, true, t₁, heat', .inl ⟨rfl, rfl⟩⟩, h₁⟩
  · obtain ⟨t₁, heat', h₁⟩ := hpopped.eat l heat (by simp)
    have hskip := h₁.skip (g := g) l
    have hrest : (t₁.skip (g.withDepth l)).rest = (s₁.skip g).rest := by
      obtain ⟨e, -, heq⟩ := hskip
      rw [heq]
      rfl
    -- The closer is missing, for both in the same way.
    rw [← hdelimiters, ← hrest] at hmissing
    obtain ⟨x, hopen, hempty, hreport⟩ | ⟨hother, b, hexpect⟩ := hmissing
    · obtain ⟨t', hreport', h'⟩ := hskip.reportUnclosed l hreport
      exact ⟨t', closeDelimiter_eq_ok_iff.mpr ⟨hpaired, false, t₁, heat',
        .inr ⟨rfl, .inl ⟨x, hopen, hempty, hreport'⟩⟩⟩, h'⟩
    · obtain ⟨t', hexpect', h'⟩ := hskip.expect l hexpect hexhausted
      exact ⟨t', closeDelimiter_eq_ok_iff.mpr ⟨hpaired, false, t₁, heat',
        .inr ⟨rfl, .inr ⟨hother, b, hexpect'⟩⟩⟩, h'⟩

/-- Both report an empty block. -/
theorem Loosened.closeEmpty (h : s.Loosened t) (l : Option Nat) {ifEmpty : Option Problem}
    {answer : Bool} {opener : Span} (hclose : s.closeEmpty g ifEmpty answer opener = .ok s') :
    ∃ t', t.closeEmpty (g.withDepth l) ifEmpty answer opener = .ok t' ∧ s'.Loosened t' := by
  have hreported := fun o d => h.reportAt (g := g) l o d
  unfold State.closeEmpty at hclose ⊢
  split at hclose
  -- The position the block is compared with does not depend on the budget.
  · have hconsumedTo : t.consumedTo = s.consumedTo := by
      obtain ⟨e, -, rfl⟩ := h
      rfl
    unfold remarkSince at hclose ⊢
    rw [hconsumedTo]
    split at hclose
    · cases hclose
      exact ⟨_, rfl, hreported _ _⟩
    · cases hclose
  · cases hclose
    exact ⟨t, rfl, h⟩

/-- Both give the warning. -/
theorem Loosened.remark (h : s.Loosened t) (l : Option Nat) (problem : Problem) :
    (s.remark g problem).Loosened (t.remark (g.withDepth l) problem) := by
  have hskip := h.skip (g := g) l
  have hreported := fun o d => hskip.reportAt (g := g) l o d
  have hspan : (t.skip (g.withDepth l)).frontSpan (g.withDepth l) = (s.skip g).frontSpan g := by
    obtain ⟨e, -, heq⟩ := hskip
    rw [heq]
    rfl
  rw [State.remark, State.remark, hspan]
  exact hreported _ _

/-- A level that was granted is granted under a looser limit. -/
theorem Loosened.enter (h : s.Loosened t) (hl : Tighter g.depthLimit l) {granted : Bool}
    (henter : s.enter g = (granted, s')) (hexhausted : s'.exhausted = none) :
    ∃ t', t.enter (g.withDepth l) = (granted, t') ∧ s'.Loosened t' := by
  obtain ⟨e, he, rfl⟩ := h
  cases granted with
  | false => exact absurd hexhausted (exhausted_of_enter henter)
  | true =>
    obtain ⟨hdeep, rfl⟩ := enter_eq_true_iff.mp henter
    -- A depth the tighter limit grants is granted by the looser one.
    have hdeep' : l.any (· ≤ s.depth) = false := by
      rw [Bool.eq_false_iff] at hdeep ⊢
      intro hany
      obtain ⟨n', hn', hle'⟩ : ∃ n' ∈ l, n' ≤ s.depth := by simpa [Option.any_eq_true] using hany
      obtain ⟨n, hn, hle⟩ := hl n' hn'
      exact hdeep (by simpa [Option.any_eq_true] using ⟨n, hn, hle.trans hle'⟩)
    exact ⟨_, enter_eq_true_iff.mpr ⟨hdeep', rfl⟩, e, he, rfl⟩

end State

/-! ## Scripts and rules -/

variable {g : Setting} {l : Option Nat}

/-- Rules do the same under looser limits, if they met no limit. -/
def Rule.Loose (rules rules' : Rule → State → Reply) : Prop :=
  ∀ rule s t a s', s.Loosened t → rules rule s = .ok (a, s') → s'.exhausted = none →
    ∃ t', rules' rule t = .ok (a, t') ∧ s'.Loosened t'

open State in
/-- A script that met no limit does the same under looser ones. -/
theorem Script.run_loosened (hl : Tighter g.depthLimit l) {rules rules' : Rule → State → Reply}
    (hrules : Rule.Loose rules rules')
    (hlater : ∀ rule s a s', rules rule s = .ok (a, s') → s.Later g s') {script : Script}
    {s s' t : State} {a : Bool} (h : s.Loosened t) (hrun : script.run g rules s = .ok (a, s'))
    (hexhausted : s'.exhausted = none) :
    ∃ t', script.run (g.withDepth l) rules' t = .ok (a, t') ∧ s'.Loosened t' := by
  -- Limits that were not met at the end were not met on the way.
  have hearlier {script : Script} {s s' : State} {a : Bool}
      (hrun : script.run g rules s = .ok (a, s')) : s'.exhausted = none → s.exhausted = none :=
    (run_later hlater hrun).exhausted
  -- Induction on the script: each state on the way has its counterpart under the looser limits.
  induction script generalizing s s' t a with
  | done answer =>
    cases hrun
    exact ⟨t, rfl, h⟩
  | fail fault => cases hrun
  | look n next ih =>
    obtain ⟨k, s₁, hlook, hrun⟩ := run_look_eq_ok_iff.mp hrun
    obtain ⟨t₁, hlook', h₁⟩ := h.look l hlook
    obtain ⟨t', hrun', h'⟩ := ih k h₁ hrun hexhausted
    exact ⟨t', run_look_eq_ok_iff.mpr ⟨k, t₁, hlook', hrun'⟩, h'⟩
  | text next ih =>
    obtain ⟨e, he, heq⟩ := h.skip (g := g) l
    rw [Script.run, heq]
    exact ih _ ⟨e, he, rfl⟩ hrun hexhausted
  | stopped next ih =>
    obtain ⟨e, he, heq⟩ := h.skip (g := g) l
    rw [Script.run, heq]
    exact ih _ ⟨e, he, rfl⟩ hrun hexhausted
  | exhausted next ih =>
    obtain ⟨e, he, rfl⟩ := h
    exact ih _ ⟨e, he, rfl⟩ hrun hexhausted
  | bump next ih =>
    obtain ⟨s₁, hbump, hrun⟩ := run_bump_eq_ok_iff.mp hrun
    obtain ⟨t₁, hbump', h₁⟩ := h.bump l hbump (hearlier hrun hexhausted)
    obtain ⟨t', hrun', h'⟩ := ih h₁ hrun hexhausted
    exact ⟨t', run_bump_eq_ok_iff.mpr ⟨t₁, hbump', hrun'⟩, h'⟩
  | flush next ih => exact ih (h.skip l).drain hrun hexhausted
  | complain x next ih =>
    obtain ⟨s₁, hcomplain, hrun⟩ := run_complain_eq_ok_iff.mp hrun
    obtain ⟨t₁, hcomplain', h₁⟩ := h.complain l hcomplain
    obtain ⟨t', hrun', h'⟩ := ih h₁ hrun hexhausted
    exact ⟨t', run_complain_eq_ok_iff.mpr ⟨t₁, hcomplain', hrun'⟩, h'⟩
  | remark problem next ih => exact ih (h.remark l problem) hrun hexhausted
  -- What the body collects is the same on both sides, and so are the frames after it.
  | node k body next ihbody ihnext =>
    obtain ⟨b, s₁, hbody, hrun⟩ := run_node_eq_ok_iff.mp hrun
    have hexhausted₁ := hearlier hrun hexhausted
    obtain ⟨t₁, hbody', h₁⟩ := ihbody (h.drain.withFrame rfl) hbody hexhausted₁
    have hframe : t.drain.frame.push (.node k t₁.frame.toList) =
        s.drain.frame.push (.node k s₁.frame.toList) := by
      rw [h.drain.frame, h₁.frame]
    obtain ⟨t', hrun', h'⟩ := ihnext (h₁.withFrame hframe) hrun hexhausted
    exact ⟨t', run_node_eq_ok_iff.mpr ⟨b, t₁, hbody', hrun'⟩, h'⟩
  | group body next ihbody ihnext =>
    obtain ⟨b, s₁, hbody, hrun⟩ := run_group_eq_ok_iff.mp hrun
    have hexhausted₁ := hearlier hrun hexhausted
    obtain ⟨t₁, hbody', h₁⟩ := ihbody (h.drain.withFrame rfl) hbody hexhausted₁
    have hframe : t.drain.frame ++ t₁.frame = s.drain.frame ++ s₁.frame := by
      rw [h.drain.frame, h₁.frame]
    obtain ⟨t', hrun', h'⟩ := ihnext (h₁.withFrame hframe) hrun hexhausted
    exact ⟨t', run_group_eq_ok_iff.mpr ⟨b, t₁, hbody', hrun'⟩, h'⟩
  | wrap k body next ihbody ihnext =>
    obtain ⟨b, s₁, hbody, hrun⟩ := run_wrap_eq_ok_iff.mp hrun
    have hexhausted₁ := hearlier hrun hexhausted
    obtain ⟨t₁, hbody', h₁⟩ := ihbody h hbody hexhausted₁
    have hframe : #[Tree.node k t₁.frame.toList] = #[.node k s₁.frame.toList] := by rw [h₁.frame]
    obtain ⟨t', hrun', h'⟩ := ihnext (h₁.withFrame hframe) hrun hexhausted
    exact ⟨t', run_wrap_eq_ok_iff.mpr ⟨b, t₁, hbody', hrun'⟩, h'⟩
  -- Where a level is entered it is entered under the looser limit, too.
  | deeper body next ihbody ihnext =>
    obtain ⟨s₁, henter, hrun⟩ | ⟨s₁, b, s₂, henter, hbody, hrun⟩ := run_deeper_eq_ok_iff.mp hrun
    · obtain ⟨t₁, henter', h₁⟩ := h.enter hl henter (hearlier hrun hexhausted)
      obtain ⟨t', hrun', h'⟩ := ihnext _ h₁ hrun hexhausted
      exact ⟨t', run_deeper_eq_ok_iff.mpr (.inl ⟨t₁, henter', hrun'⟩), h'⟩
    · have hexhausted₂ := hearlier hrun hexhausted
      obtain ⟨t₁, henter', h₁⟩ := h.enter hl henter (hearlier hbody hexhausted₂)
      obtain ⟨t₂, hbody', h₂⟩ := ihbody h₁ hbody hexhausted₂
      obtain ⟨t', hrun', h'⟩ :=
        ihnext _ (h₂.map (f := leave) rfl fun _ => rfl) hrun hexhausted
      exact ⟨t', run_deeper_eq_ok_iff.mpr (.inr ⟨t₁, b, t₂, henter', hbody', hrun'⟩), h'⟩
  | enclosed d construct ifEmpty body next ihbody ihnext =>
    obtain ⟨s₁, b, s₂, s₃, s₄, hopen, hbody, hclose, hempty, hrun⟩ := run_enclosed_eq_ok_iff.mp hrun
    -- No limit was met at the end of the script, so none was met at any earlier state.
    have hexhausted₃ := (later_lasting.closeEmpty hempty).exhausted (hearlier hrun hexhausted)
    have hexhausted₂ : s₂.exhausted = none :=
      (later_lasting.closeDelimiter hclose).exhausted hexhausted₃
    have hspan : (t.skip (g.withDepth l)).frontSpan (g.withDepth l) = (s.skip g).frontSpan g := by
      obtain ⟨e, -, heq⟩ := h.skip (g := g) l
      rw [heq]
      rfl
    obtain ⟨t₁, hopen', h₁⟩ := h.openDelimiter l hopen (hearlier hbody hexhausted₂)
    obtain ⟨t₂, hbody', h₂⟩ := ihbody h₁ hbody hexhausted₂
    obtain ⟨t₃, hclose', h₃⟩ := h₂.closeDelimiter l hclose hexhausted₃
    obtain ⟨t₄, hempty', h₄⟩ := h₃.closeEmpty l hempty
    rw [← hspan] at hempty'
    obtain ⟨t', hrun', h'⟩ := ihnext h₄ hrun hexhausted
    exact ⟨t', run_enclosed_eq_ok_iff.mpr
      ⟨t₁, b, t₂, t₃, t₄, hopen', hbody', hclose', hempty', hrun'⟩, h'⟩
  | call rule next ih =>
    obtain ⟨b, s₁, hcall, hrun⟩ := run_call_eq_ok_iff.mp hrun
    obtain ⟨t₁, hcall', h₁⟩ := hrules rule s t b s₁ h hcall (hearlier hrun hexhausted)
    obtain ⟨t', hrun', h'⟩ := ih b h₁ hrun hexhausted
    exact ⟨t', run_call_eq_ok_iff.mpr ⟨b, t₁, hcall', hrun'⟩, h'⟩

/-- A rule that met no limit does the same under looser ones. -/
theorem Rule.run_loosened (hl : Tighter g.depthLimit l) (budget : Nat) :
    Rule.Loose (Rule.run g budget) (Rule.run (g.withDepth l) budget) := by
  induction budget with
  | zero =>
    intro rule s t a s' _ hrun
    cases hrun
  | succ budget ih =>
    intro rule s t a s' h hrun hexhausted
    exact Script.run_loosened hl ih (fun _ _ _ _ => Rule.run_later) h hrun hexhausted

/-! ## Parses -/

/-- The outcome of a parse tells whether a resource ran out. -/
private theorem State.exhausted_eq_none_iff {source : String} {s : State}
    {outcome : Except ParseError Parsed} (h : s.finish source = .ok outcome) :
    s.exhausted = none ↔ ∀ resource, outcome ≠ .error (.exhausted resource) := by
  unfold State.finish at h
  split at h
  · next resource hexhausted =>
    cases h
    simp [hexhausted]
  · next hexhausted =>
    refine iff_of_true hexhausted ?_
    -- A finished state that is not exhausted parses or panics, but never exhausts.
    rintro resource rfl
    split at h
    · cases h
    · dsimp only at h
      split at h <;> cases h

/-- Steps that are left do not count in the end. -/
private theorem State.finish_withSteps (source : String) (s : State) (e : Option Nat) :
    (s.withSteps e).finish source = s.finish source := rfl

/-- A run that met neither limit is the same under looser ones. -/
theorem parse_of_run {source : String} {recovery a : Bool} {steps steps' depth depth' : Option Nat}
    {s : State} {outcome : Except ParseError Parsed}
    (hrun : Rule.program.run ⟨Text.byteLength source.toList, recovery, depth⟩
      (callBudget (Token.lex source)) (.initial (Token.lex source) steps) = .ok (a, s))
    (hfinish : s.finish source = .ok outcome) (hexhausted : s.exhausted = none)
    (hsteps : Tighter steps steps') (hdepth : Tighter depth depth') :
    parse ⟨recovery, steps', depth'⟩ source = .ok outcome := by
  have hinitial : (State.initial (Token.lex source) steps).Loosened
      (State.initial (Token.lex source) steps') := ⟨steps', hsteps, rfl⟩
  obtain ⟨t, hrun', e, -, rfl⟩ :=
    Rule.run_loosened (l := depth') hdepth _ _ _ _ _ _ hinitial hrun hexhausted
  exact parseLexed_eq_ok_iff.mpr ⟨a, _, hrun', by rw [State.finish_withSteps, hfinish]⟩

/-- A parse that exceeds neither limit has the same outcome under looser ones: the same tree and the
    same reports, or the same reports if it failed. -/
theorem parse_loosened {source : String} {recovery : Bool} {steps steps' depth depth' : Option Nat}
    {outcome : Except ParseError Parsed} (h : parse ⟨recovery, steps, depth⟩ source = .ok outcome)
    (hlimits : ∀ resource, outcome ≠ .error (.exhausted resource))
    (hsteps : Tighter steps steps') (hdepth : Tighter depth depth') :
    parse ⟨recovery, steps', depth'⟩ source = .ok outcome := by
  obtain ⟨a, s, hrun, hfinish⟩ := parseLexed_eq_ok_iff.mp h
  have hexhausted := (State.exhausted_eq_none_iff hfinish).mpr hlimits
  exact parse_of_run hrun hfinish hexhausted hsteps hdepth

/-- Two steps and two levels are enough for a name. -/
theorem parse_loosened_name :
    ∃ p, parse ⟨true, some 2, some 2⟩ "a;" = .ok (.ok p) ∧
      (∀ resource, (.ok p : Except ParseError Parsed) ≠ .error (.exhausted resource)) ∧
      Tighter (some 2) (some 7) ∧ Tighter (some 2) none ∧
      parse ⟨true, some 7, none⟩ "a;" = .ok (.ok p) := by
  have hparse : parse ⟨true, some 2, some 2⟩ "a;" = .ok (.ok ⟨.node .program [.node .exprStmt
      [.node .nameRef [.leaf .identifier "a"], .leaf .semiColon ";"]], []⟩) := by decide +kernel
  have hsteps : Tighter (some 2) (some 7) := by simp [Tighter]
  have hdepth : Tighter (some 2) none := by simp [Tighter]
  exact ⟨_, hparse, by simp, hsteps, hdepth, parse_loosened hparse (by simp) hsteps hdepth⟩

/-- A parse with recovery and without a bound on the nesting takes one step for each significant
    token, whatever else is in the source: with fewer steps it runs out of them, and otherwise their
    number does not matter. -/
theorem parse_stepLimit {source : String} {n : Nat} {outcome : Except ParseError Parsed}
    (h : parse ⟨true, some n, none⟩ source = .ok outcome) :
    (n < (Token.significant (Token.lex source)).length →
      outcome = .error (.exhausted .steps)) ∧
    ((Token.significant (Token.lex source)).length ≤ n →
      parse ⟨true, none, none⟩ source = .ok outcome) := by
  obtain ⟨a, s, hrun, hfinish⟩ := parseLexed_eq_ok_iff.mp h
  have hlater := Rule.run_later hrun
  -- Below the threshold the limit is met, from the threshold on it is not.
  constructor
  · intro hfew
    have hshallow := hlater.shallow rfl (by simp [State.initial])
    have hhalted : s.halted = false := hlater.running rfl
    cases hexhausted : s.exhausted with
    | none =>
      -- All tokens were read, and each one was paid for.
      have hfunded := (Rule.run_program_funded hrun hexhausted hhalted).2 n rfl
      exact absurd hfunded (Nat.not_le_of_lt hfew)
    | some resource =>
      rw [State.finish, hexhausted] at hfinish
      cases hfinish
      cases resource with
      | steps => rfl
      | depth => exact absurd hexhausted hshallow
  · intro henough
    have hfunded : (State.initial (Token.lex source) (some n)).Funded := by
      refine ⟨rfl, fun m hm => ?_⟩
      cases hm
      exact henough
    exact parse_of_run hrun hfinish (hlater.funded rfl hfunded) (by simp [Tighter])
      (by simp [Tighter])

/-- A comment takes no step. -/
theorem parse_stepLimit_comment :
    ∃ p, parse ⟨true, some 2, none⟩ "a/**/;" = .ok (.ok p) ∧
      (Token.significant (Token.lex "a/**/;")).length ≤ 2 ∧
      parse ⟨true, none, none⟩ "a/**/;" = .ok (.ok p) := by
  have hparse : parse ⟨true, some 2, none⟩ "a/**/;" = .ok (.ok ⟨.node .program [.node .exprStmt
      [.node .nameRef [.leaf .identifier "a"], .leaf .blockComment "/**/",
        .leaf .semiColon ";"]], []⟩) := by decide +kernel
  have hlength : (Token.significant (Token.lex "a/**/;")).length = 2 := by decide +kernel
  exact ⟨_, hparse, hlength.le, (parse_stepLimit hparse).2 hlength.le⟩

end ScriptTree
