import ScriptTree.Proofs.Analyses
import ScriptTree.Proofs.Closers
import ScriptTree.Proofs.Strictness

/-!
# Balanced sources

Where each delimiter of a source has its partner, no delimiter is reported to be unclosed, whatever
else is wrong.

The open delimiters of the parse and those of the source need not be the same: the parse does not
note those that it sets aside, nor the parentheses of a condition.  But the former are always among
the latter, in the same order (`State.Nested`).

## Key results

- `Rule.run_nested`: a run keeps it that way
- `parse_balanced`: the reports of a parse of a balanced source
-/

namespace ScriptTree

/-! ## Balanced tokens -/

/-- The open delimiters after a token.  There is no answer if the token closes another delimiter
    than the innermost one. -/
def Kind.nest (stack : List Delimiter) (k : Kind) : Option (List Delimiter) :=
  match k.opens, k.closes with
  | some d, _ => some (d :: stack)
  | none, some d => if stack.head? = some d then some stack.tail else none
  | none, none => some stack

/-- The tokens close the delimiters that are open before them, and those that they open. -/
def balanced (stack : List Delimiter) (ks : List Kind) : Bool :=
  ks.foldlM Kind.nest stack == some []

variable {d : Delimiter} {k : Kind} {ks : List Kind} {stack : List Delimiter}

/-- At the end nothing may be open. -/
private theorem balanced_nil : balanced stack [] = true ↔ stack = [] := by
  simp [balanced]

/-- Each token changes what is open, or nothing at all. -/
private theorem balanced_cons : balanced stack (k :: ks) = true ↔
    ∃ stack', k.nest stack = some stack' ∧ balanced stack' ks = true := by
  simp [balanced, Option.bind_eq_some_iff]

/-- An opener opens its delimiter. -/
private theorem nest_opener : d.opener.nest stack = some (d :: stack) := by
  cases d <;> rfl

/-- A closer closes the delimiter that was opened last. -/
private theorem nest_closer {stack' : List Delimiter} (h : d.closer.nest stack = some stack') :
    stack = d :: stack' := by
  cases stack with
  | nil => cases d <;> simp [Kind.nest, Kind.opens, Kind.closes, Delimiter.closer] at h
  | cons d' stack =>
    cases d <;> simp [Kind.nest, Kind.opens, Kind.closes, Delimiter.closer] at h <;> simp [h]

/-- Delimiters that are among the open ones still are after a token that does not close the
    innermost of them. -/
private theorem sublist_nest {open? stack' : List Delimiter} (hsub : open?.Sublist stack)
    (hspares : Spares open?.head? k) (h : k.nest stack = some stack') : open?.Sublist stack' := by
  unfold Kind.nest at h
  -- The token opens, closes or does neither.
  split at h
  · cases h
    exact hsub.cons _
  · next d _ hcloses =>
    split at h
    · next hhead =>
      cases h
      obtain ⟨stack, rfl⟩ := List.head?_eq_some_iff.mp hhead
      cases hsub with
      | cons _ hsub => exact hsub
      | cons_cons _ hsub => exact absurd hcloses (hspares d rfl)
    · cases h
  · cases h
    exact hsub

/-! ## States -/

/-- Lexical problems have nothing to do with delimiters. -/
theorem Problem.isStructural_of_isLexical {problem : Problem} (h : problem.isLexical = true) :
    problem.isStructural = false := by
  cases problem <;> first | rfl | cases h

/-- That a delimiter is not closed is a structural problem. -/
theorem Delimiter.isStructural_unclosed (d : Delimiter) : d.unclosed.isStructural = true := by
  cases d <;> rfl

namespace State

variable {g : Setting} {s s' : State} {v : Glimpse}

/-- The kinds of the tokens ahead. -/
def ahead (s : State) : List Kind := (Token.significant s.rest).map (·.kind)

/-- The innermost open delimiter. -/
def top (s : State) : Option Delimiter := s.delimiters.head?.map (·.1)

/-- The source is balanced, and what the parse holds to be open is; nothing else was reported. -/
structure Nested (s : State) : Prop where
  within : ∃ stack, balanced stack s.ahead = true ∧ (s.delimiters.map (·.1)).Sublist stack
  reports : ∀ d ∈ s.diagnostics, d.problem.isStructural = false

/-- The next tokens are those of the glimpse. -/
structure Shows (s : State) (v : Glimpse) : Prop where
  first : ∀ k, v.first = some k → s.ahead[0]?.getD .error = k
  second : ∀ k, v.second = some k → s.ahead[1]?.getD .error = k

/-- Where nothing is claimed, there is nothing to show. -/
private theorem shows_blind (s : State) : s.Shows .blind :=
  ⟨by simp [Glimpse.blind], by simp [Glimpse.blind]⟩

/-- What a glimpse shows depends on the tokens ahead only. -/
theorem Shows.congr (h : s.Shows v) (hahead : s'.ahead = s.ahead) : s'.Shows v :=
  ⟨hahead ▸ h.first, hahead ▸ h.second⟩

/-- A lookahead shows what is there. -/
theorem Shows.see (h : s.Shows v) (n : Nat) :
    s.Shows (v.see n (s.ahead[n]?.getD .error)) := by
  match n with
  | 0 => exact ⟨fun _ => Option.some.inj, h.second⟩
  | 1 => exact ⟨h.first, fun _ => Option.some.inj⟩
  | _ + 2 => exact h

/-- What is there is allowed by a glimpse that is right. -/
private theorem Shows.allows (h : s.Shows v) (n : Nat) : v.Allows n (s.ahead[n]?.getD .error) := by
  rintro rfl k hk
  exact h.first k hk

/-- The kinds ahead depend on the tokens ahead only. -/
theorem ahead_congr (h : s'.rest = s.rest) : s'.ahead = s.ahead := by rw [ahead, ahead, h]

/-- Skipping changes none of the significant kinds ahead. -/
@[simp] theorem ahead_skip : (s.skip g).ahead = s.ahead := by
  rw [ahead, ahead, skip_rest, significant_dropWhile]

/-- After skipping, the first kind ahead is that of the current token. -/
theorem ahead_of_rest {t : Token} {ts : List Token} (h : (s.skip g).rest = t :: ts) :
    s.ahead = t.kind :: (Token.significant ts).map (·.kind) := by
  rw [skip_rest] at h
  have ht : t.kind.isSkipped = false := Token.isSkipped_of_dropWhile h
  rw [ahead, ← significant_dropWhile, h]
  simp [Token.significant, ht]

/-- No token was consumed, and nothing was reported that is about delimiters. -/
theorem Nested.of_still (h : s.Nested) (hahead : s'.ahead = s.ahead)
    (hdelimiters : s'.delimiters = s.delimiters)
    (hreports : ∀ d ∈ s'.diagnostics, d ∈ s.diagnostics ∨ d.problem.isStructural = false) :
    s'.Nested where
  within := by rw [hahead, hdelimiters]; exact h.within
  reports d hd := (hreports d hd).elim (h.reports d) id

/-- Skipping reports lexical problems only. -/
private theorem mem_skip_diagnostics {d : Diagnostic} (hd : d ∈ (s.skip g).diagnostics) :
    d ∈ s.diagnostics ∨ d.problem.isStructural = false := by
  rw [skip_eq] at hd
  refine (Array.mem_append.mp hd).imp id fun hd => ?_
  obtain ⟨t, rfl⟩ := mem_passReports (List.mem_toArray.mp hd)
  exact Problem.isStructural_of_isLexical t.isLexical_lexDiagnostic

/-- Skipping keeps the delimiters nested. -/
theorem Nested.skip (h : s.Nested) : (s.skip g).Nested :=
  h.of_still ahead_skip skip_delimiters fun _ => mem_skip_diagnostics

/-- A report that is not about a delimiter keeps them nested. -/
theorem Nested.reportAt (h : s.Nested) {d : Diagnostic} (hd : d.problem.isStructural = false)
    (o : Nat) : (s.reportAt g o d).Nested := by
  refine h.of_still (ahead_congr (reportAt_rest o d)) (reportAt_delimiters o d) fun x hx => ?_
  unfold State.reportAt at hx
  split at hx
  · exact .inl hx
  · obtain hx | rfl := Array.mem_push.mp hx
    · exact .inl hx
    · exact .inr hd

/-- The patience has nothing to do with nesting. -/
theorem Nested.withPatience (h : s.Nested) (p : Nat) : ({ s with patience := p } : State).Nested :=
  h.of_still rfl rfl fun _ => .inl

/-- A lookahead tells a kind ahead and changes neither tokens nor delimiters. -/
theorem ahead_look {n : Nat} (hlook : s.look g n = .ok (k, s')) :
    k = s.ahead[n]?.getD .error ∧ s'.ahead = s.ahead ∧ s'.delimiters = s.delimiters := by
  obtain ⟨-, hk, rfl⟩ := look_eq_ok_iff.mp hlook
  have hskip : (s.skip g).ahead = s.ahead := ahead_skip
  exact ⟨by simp [hk, ahead], hskip, skip_delimiters⟩

/-- A lookahead keeps the delimiters nested. -/
theorem Nested.look (h : s.Nested) {n : Nat} (hlook : s.look g n = .ok (k, s')) : s'.Nested := by
  obtain ⟨-, -, rfl⟩ := look_eq_ok_iff.mp hlook
  exact h.skip.withPatience _

/-- The token that is consumed comes off the front. -/
private theorem ahead_bump (hbump : s.bump g = .ok s') :
    (∃ k, s.ahead = k :: s'.ahead) ∧ s'.delimiters = s.delimiters ∧
      ∀ d ∈ s'.diagnostics, d ∈ s.diagnostics ∨ d.problem.isStructural = false := by
  obtain ⟨t, ts, hrest, rfl⟩ := bump_eq_ok_iff.mp hbump
  refine ⟨⟨t.kind, ahead_of_rest hrest⟩, by simp, fun d hd => ?_⟩
  rw [consume_diagnostics] at hd
  exact mem_skip_diagnostics hd

/-- What was second is first after a token was consumed. -/
theorem Shows.bump (h : s.Shows v) (hbump : s.bump g = .ok s') : s'.Shows v.eat := by
  obtain ⟨⟨k, hahead⟩, -⟩ := ahead_bump hbump
  refine ⟨fun j hj => ?_, by simp [Glimpse.eat]⟩
  have hsecond := h.second j hj
  rw [hahead] at hsecond
  simpa using hsecond

/-- A token that is consumed does not close the innermost delimiter. -/
theorem Nested.bump (h : s.Nested) (hshows : s.Shows v) (hspares : v.Spares s.top)
    (hbump : s.bump g = .ok s') : s'.Nested := by
  obtain ⟨⟨k, hahead⟩, hdelimiters, hreports⟩ := ahead_bump hbump
  obtain ⟨j, hj, hspares⟩ := hspares
  obtain rfl : k = j := by simpa [hahead] using hshows.first j hj
  -- A closer that is set aside closes a delimiter which the parse does not note.
  obtain ⟨stack, hbalanced, hsub⟩ := h.within
  rw [hahead, balanced_cons] at hbalanced
  obtain ⟨stack', hnest, hbalanced⟩ := hbalanced
  refine ⟨⟨stack', hbalanced, ?_⟩, fun d hd => (hreports d hd).elim (h.reports d) id⟩
  rw [hdelimiters]
  exact sublist_nest hsub (by rwa [List.head?_map]) hnest

/-- A complaint that is not about a delimiter keeps them nested. -/
theorem Nested.complain (h : s.Nested) {x : Complaint} (hx : x.problem.isStructural = false)
    (hcomplain : s.complain g x = .ok s') : s'.Nested := by
  obtain ⟨p, d, rfl, hd⟩ := complain_eq_ok hcomplain
  exact (h.skip.withPatience p).reportAt (hd ▸ hx) _

/-- A warning that is not about a delimiter keeps them nested. -/
theorem Nested.remark (h : s.Nested) {problem : Problem}
    (hproblem : problem.isStructural = false) : (s.remark g problem).Nested :=
  h.skip.reportAt hproblem _

/-- The delimiter that is opened is open in the source, too. -/
theorem Nested.openDelimiter (h : s.Nested) (hshows : s.Shows v) (hfirst : v.first = some d.opener)
    (hopen : s.openDelimiter g d = .ok s') : s'.Nested ∧ s'.top = some d := by
  -- The opener is consumed with the delimiter already on the stack.
  have hbump : ({ s.skip g with
    delimiters := (d, (s.skip g).frontSpan g) :: (s.skip g).delimiters } : State).bump g = .ok s' :=
    hopen
  obtain ⟨⟨k, hahead⟩, hdelimiters, hreports⟩ := ahead_bump hbump
  have hahead : s.ahead = k :: s'.ahead := ahead_skip.symm.trans hahead
  obtain rfl : k = d.opener := by simpa [hahead] using hshows.first _ hfirst
  obtain ⟨stack, hbalanced, hsub⟩ := h.within
  rw [hahead, balanced_cons] at hbalanced
  obtain ⟨stack', hnest, hbalanced⟩ := hbalanced
  obtain rfl : d :: stack = stack' := Option.some.inj (nest_opener.symm.trans hnest)
  refine ⟨⟨⟨d :: stack, hbalanced, ?_⟩, fun x hx => ?_⟩, by rw [top, hdelimiters]; rfl⟩
  · rw [hdelimiters]
    simpa using hsub
  · exact (hreports x hx).elim ((h.skip (g := g)).reports x) id

/-- A closer that is missing is not missing at the end of the source, since its opener has a partner
    ahead. -/
theorem Nested.closeDelimiter (h : s.Nested) {construct : String}
    (hclose : s.closeDelimiter g d construct = .ok s') : s'.Nested := by
  obtain ⟨found, s₁, hlook, hclosed⟩ := closeDelimiter_cases hclose
  obtain ⟨stack, hbalanced, hsub⟩ := h.within
  -- The delimiter on top is set aside before its closer is looked for.
  have hsub' : (s.delimiters.tail.map (·.1)).Sublist stack :=
    ((List.tail_sublist _).map _).trans hsub
  have htail : ({ s with delimiters := s.delimiters.tail } : State).Nested :=
    ⟨⟨stack, hbalanced, hsub'⟩, h.reports⟩
  have hlooked : s₁.Nested := htail.look hlook
  obtain ⟨hfound, hahead, hdelimiters⟩ := ahead_look hlook
  obtain ⟨rfl, hbump⟩ | ⟨-, p, dg, hmisses, rfl⟩ := hclosed
  -- The closer is what the source has open there.
  · obtain ⟨⟨k, hahead'⟩, hdelimiters', hreports⟩ := ahead_bump hbump
    have hahead : s.ahead = k :: s'.ahead := hahead.symm.trans hahead'
    obtain rfl : d.closer = k := by
      rw [hfound]
      show s.ahead[0]?.getD .error = k
      simp [hahead]
    rw [hahead, balanced_cons] at hbalanced
    obtain ⟨stack', hnest, hbalanced⟩ := hbalanced
    obtain rfl := nest_closer hnest
    refine ⟨⟨stack', hbalanced, ?_⟩, fun x hx => (hreports x hx).elim (hlooked.reports x) id⟩
    rw [hdelimiters', hdelimiters, List.map_tail]
    exact hsub.tail
  · refine (hlooked.withPatience p).reportAt ?_ _
    generalize dg.problem = problem at hmisses ⊢
    cases hmisses with
    | expected => rfl
    | unclosed hopen hrest =>
      -- At the end of the source nothing is open in it, so nothing is open in the parse either.
      have hnil : s.ahead = [] := hahead.symm.trans (by rw [ahead, hrest]; rfl)
      rw [hnil, balanced_nil] at hbalanced
      subst hbalanced
      cases hdelims : s.delimiters with
      | nil => simp [hdelims] at hopen
      | cons => simp [hdelims] at hsub

/-- The report on an empty block keeps the delimiters nested. -/
theorem Nested.closeEmpty (h : s.Nested) {ifEmpty : Option Problem} {answer : Bool} {opener : Span}
    (hproblem : ∀ problem ∈ ifEmpty, problem.isStructural = false)
    (hempty : s.closeEmpty g ifEmpty answer opener = .ok s') : s'.Nested := by
  obtain ⟨-, rfl⟩ | ⟨problem, hsome, -, hremark⟩ := closeEmpty_eq_ok_iff.mp hempty
  · exact h
  · obtain ⟨d, rfl, hd, -⟩ := remarkSince_report hremark
    exact h.reportAt (hd ▸ hproblem problem hsome) _

/-- Where a run leaves off, the same delimiter is innermost. -/
private theorem top_of_later (h : s.Later g s') : s'.top = s.top := by rw [top, top, h.delimiters]

/-- Only the frame and what limits the parse changed. -/
theorem Nested.congr (h : s.Nested) (hrest : s'.rest = s.rest)
    (hdelimiters : s'.delimiters = s.delimiters) (hdiagnostics : s'.diagnostics = s.diagnostics) :
    s'.Nested :=
  h.of_still (ahead_congr hrest) hdelimiters fun _ hd => .inl (hdiagnostics ▸ hd)

/-- To ask for a level keeps the delimiters nested. -/
theorem Nested.enter (h : s.Nested) {b : Bool} (henter : s.enter g = (b, s')) :
    s'.Nested ∧ s'.ahead = s.ahead ∧ s'.top = s.top := by
  obtain ⟨_, _, _, rfl⟩ := enter_eq henter
  exact ⟨h.congr rfl rfl rfl, rfl, rfl⟩

end State

/-! ## Runs -/

variable {g : Setting}

/-- From the state the script leaves closers alone, and that the delimiters of the source are kept
    to shows what is claimed of the outcome. -/
def Script.KeepsNesting (script : Script) (s : State) (goal : Bool → State → Prop) : Prop :=
  ∃ v, script.Heeds s.top v ∧ s.Nested ∧ s.Shows v ∧ ∀ a s', s'.Nested → goal a s'

namespace Script.KeepsNesting

variable {script next body : Script} {s s' s₁ : State} {goal goal' : Bool → State → Prop}

/-- The nesting may be kept for a weaker goal. -/
theorem mono (h : script.KeepsNesting s goal) (hgoal : ∀ a s', goal a s' → goal' a s') :
    script.KeepsNesting s goal' := by
  obtain ⟨v, hheeds, hs, hv, hshown⟩ := h
  exact ⟨v, hheeds, hs, hv, fun a s' hs' => hgoal a s' (hshown a s' hs')⟩

/-- Where something was read in between, what was known of the tokens ahead is given up. -/
theorem later {top : Option Delimiter} (hheeds : next.Heeds top .blind) (hs' : s'.Nested)
    (htop : s'.top = top) (hgoal : ∀ a s', s'.Nested → goal a s') : next.KeepsNesting s' goal :=
  ⟨.blind, htop ▸ hheeds, hs', State.shows_blind s', hgoal⟩

/-- A step that consumes nothing keeps the nesting for what follows. -/
theorem step (hstep : Step g script s next s') (h : script.KeepsNesting s goal) :
    next.KeepsNesting s' goal := by
  -- Each step leaves the delimiter on top, and at most shortens what is ahead.
  obtain ⟨v, hheeds, hs, hv, hgoal⟩ := h
  have htop : s'.top = s.top := State.top_of_later (hstep.lasting State.later_lasting)
  cases hstep with
  | look hlook =>
    obtain ⟨rfl, hahead, -⟩ := State.ahead_look hlook
    exact ⟨_, htop ▸ hheeds _ (hv.allows _), hs.look hlook, (hv.see _).congr hahead, hgoal⟩
  | text => exact ⟨v, htop ▸ hheeds _, hs.skip, hv.congr State.ahead_skip, hgoal⟩
  | stopped => exact ⟨v, htop ▸ hheeds _, hs.skip, hv.congr State.ahead_skip, hgoal⟩
  | exhausted => exact ⟨v, hheeds _, hs, hv, hgoal⟩
  | flush =>
    exact ⟨v, htop ▸ hheeds, hs.skip.congr rfl rfl rfl, hv.congr State.ahead_skip, hgoal⟩
  | complain hcomplain =>
    have hahead : s'.ahead = s.ahead := by
      obtain ⟨p, d, rfl, -⟩ := State.complain_eq_ok hcomplain
      exact (State.ahead_congr (State.reportAt_rest _ _)).trans State.ahead_skip
    exact ⟨v, htop ▸ hheeds.2, hs.complain hheeds.1 hcomplain, hv.congr hahead, hgoal⟩
  | remark problem =>
    have hahead : (s.remark g problem).ahead = s.ahead :=
      (State.ahead_congr (State.reportAt_rest _ _)).trans State.ahead_skip
    exact ⟨v, htop ▸ hheeds.2, hs.remark hheeds.1, hv.congr hahead, hgoal⟩

/-- A token that is consumed keeps the nesting for what follows. -/
theorem bump (hbump : s.bump g = .ok s') (h : (Script.bump next).KeepsNesting s goal) :
    next.KeepsNesting s' goal := by
  obtain ⟨v, ⟨hspares, hheeds⟩, hs, hv, hgoal⟩ := h
  have htop : s'.top = s.top := State.top_of_later (State.later_lasting.bump hbump)
  exact ⟨v.eat, htop ▸ hheeds, hs.bump hv hspares hbump, hv.bump hbump, hgoal⟩

/-- The body of a node keeps the nesting from an empty frame on, and the node then stands in the
    frame outside. -/
theorem node (g : Setting) {k : Kind} (h : (Script.node k body next).KeepsNesting s goal) :
    body.KeepsNesting { s.drain with frame := #[] } fun _ s₁ =>
      State.Later g { s.drain with frame := #[] } s₁ →
        next.KeepsNesting { s₁ with frame := s.drain.frame.push (.node k s₁.frame.toList) }
          goal := by
  obtain ⟨v, ⟨hbody, hnext⟩, hs, hv, hgoal⟩ := h
  refine ⟨v, hbody, hs.congr rfl rfl rfl, hv.congr rfl, fun _ s₁ hs₁ hlater => ?_⟩
  have htop : s₁.top = s.top := (State.top_of_later hlater).trans rfl
  exact later hnext (hs₁.congr rfl rfl rfl) htop hgoal

/-- The body of a group keeps the nesting from an empty frame on, and its frame then joins the one
    outside. -/
theorem group (g : Setting) (h : (Script.group body next).KeepsNesting s goal) :
    body.KeepsNesting { s.drain with frame := #[] } fun _ s₁ =>
      State.Later g { s.drain with frame := #[] } s₁ →
        next.KeepsNesting { s₁ with frame := s.drain.frame ++ s₁.frame } goal := by
  obtain ⟨v, ⟨hbody, hnext⟩, hs, hv, hgoal⟩ := h
  refine ⟨v, hbody, hs.congr rfl rfl rfl, hv.congr rfl, fun _ s₁ hs₁ hlater => ?_⟩
  have htop : s₁.top = s.top := (State.top_of_later hlater).trans rfl
  exact later hnext (hs₁.congr rfl rfl rfl) htop hgoal

/-- The body of what wraps keeps the nesting in the same frame, which then is one node. -/
theorem wrap (g : Setting) {k : Kind} (h : (Script.wrap k body next).KeepsNesting s goal) :
    body.KeepsNesting s fun _ s₁ => s.Later g s₁ →
      next.KeepsNesting { s₁ with frame := #[.node k s₁.frame.toList] } goal := by
  obtain ⟨v, ⟨hbody, hnext⟩, hs, hv, hgoal⟩ := h
  refine ⟨v, hbody, hs, hv, fun _ s₁ hs₁ hlater => ?_⟩
  have htop : s₁.top = s.top := State.top_of_later hlater
  exact later hnext (hs₁.congr rfl rfl rfl) htop hgoal

/-- A level that was refused keeps the nesting for what follows. -/
theorem refused {next : Bool → Script} (henter : s.enter g = (false, s₁))
    (h : (Script.deeper body next).KeepsNesting s goal) : (next false).KeepsNesting s₁ goal := by
  obtain ⟨v, ⟨-, hnext⟩, hs, -, hgoal⟩ := h
  obtain ⟨hs₁, -, htop₁⟩ := hs.enter henter
  exact later (hnext _) hs₁ htop₁ hgoal

/-- On a level that was granted the nesting is kept, and after it was left. -/
theorem granted {next : Bool → Script} (henter : s.enter g = (true, s₁))
    (h : (Script.deeper body next).KeepsNesting s goal) :
    body.KeepsNesting s₁ fun _ s₂ => s₁.Later g s₂ → (next true).KeepsNesting s₂.leave goal := by
  obtain ⟨v, ⟨hbody, hnext⟩, hs, hv, hgoal⟩ := h
  obtain ⟨hs₁, hahead, htop₁⟩ := hs.enter henter
  refine ⟨v, htop₁ ▸ hbody, hs₁, hv.congr hahead, fun _ s₂ hs₂ hlater => ?_⟩
  have htop₂ : s₂.top = s₁.top := State.top_of_later hlater
  exact later (hnext _) (hs₂.congr rfl rfl rfl) (htop₂.trans htop₁) hgoal

/-- When the delimiter is closed, the one outside is innermost again. -/
theorem enclosed {d : Delimiter} {construct : String} {ifEmpty : Option Problem}
    (hopen : s.openDelimiter g d = .ok s₁)
    (h : (Script.enclosed d construct ifEmpty body next).KeepsNesting s goal) :
    body.KeepsNesting s₁ fun b s₂ => s₁.Later g s₂ → ∀ s₃ s₄,
      s₂.closeDelimiter g d construct = .ok s₃ →
        s₃.closeEmpty g ifEmpty b ((s.skip g).frontSpan g) = .ok s₄ →
          next.KeepsNesting s₄ goal := by
  obtain ⟨v, ⟨hfirst, hifEmpty, hbody, hnext⟩, hs, hv, hgoal⟩ := h
  obtain ⟨hs₁, htop₁⟩ := hs.openDelimiter hv hfirst hopen
  refine ⟨.blind, htop₁ ▸ hbody, hs₁, State.shows_blind s₁, ?_⟩
  intro b s₂ hs₂ hlater s₃ s₄ hclose hempty
  -- What is outside the delimiters is left as it was by what stands inside.
  have houtside : s.Later g s₄ := (State.later_lasting.enclosed hopen hlater hclose).trans
    (State.later_lasting.closeEmpty hempty)
  exact later hnext ((hs₂.closeDelimiter hclose).closeEmpty hifEmpty hempty)
    (State.top_of_later houtside) hgoal

/-- A rule that was called keeps the nesting for what follows, since all rules do. -/
theorem call {rules : Rule → State → Reply}
    (hlater : ∀ rule s a s', rules rule s = .ok (a, s') → s.Later g s')
    (hrules : ∀ rule s a s' v, rules rule s = .ok (a, s') → s.Nested → s.Shows v →
      rule.Fits s.top v → s'.Nested)
    {rule : Rule} {next : Bool → Script} {b : Bool} (hcall : rules rule s = .ok (b, s₁))
    (h : (Script.call rule next).KeepsNesting s goal) : (next b).KeepsNesting s₁ goal := by
  obtain ⟨v, ⟨hfits, hnext⟩, hs, hv, hgoal⟩ := h
  exact later (hnext _) (hrules _ _ _ _ v hcall hs hv hfits)
    (State.top_of_later (hlater _ _ _ _ hcall)) hgoal

end Script.KeepsNesting

/-- What a script heeds shows that it keeps to the delimiters of the source. -/
def Script.nestingAnalysis {rules : Rule → State → Reply}
    (hlater : ∀ rule s a s', rules rule s = .ok (a, s') → s.Later g s')
    (hrules : ∀ rule s a s' v, rules rule s = .ok (a, s') → s.Nested → s.Shows v →
      rule.Fits s.top v → s'.Nested) : Script.Analysis g rules where
  Fine := KeepsNesting
  Last _ := True
  Before := State.Later g
  lasting := State.later_lasting
  before := hlater
  back _ _ := trivial
  outer _ := trivial
  done := fun ⟨_, _, hs, _, hgoal⟩ => hgoal _ _ hs
  step hstep _ := .step hstep
  bump hbump _ := .bump hbump
  node h := (h.node g).mono fun _ _ hnext hbody _ => hnext (run_later hlater hbody)
  group h := (h.group g).mono fun _ _ hnext hbody _ => hnext (run_later hlater hbody)
  wrap h := (h.wrap g).mono fun _ _ hnext hbody _ => hnext (run_later hlater hbody)
  refused henter _ := .refused henter
  granted henter h := (h.granted henter).mono fun _ _ hnext hbody _ =>
    hnext (run_later hlater hbody)
  enclosed hopen h := (h.enclosed hopen).mono fun _ _ hnext hbody s₃ s₄ hclose hempty _ =>
    hnext (run_later hlater hbody) s₃ s₄ hclose hempty
  call hcall _ := .call hlater hrules hcall

/-- A script that leaves closers alone keeps to the delimiters of the source, if the rules that it
    calls do. -/
theorem Script.run_nested {rules : Rule → State → Reply}
    (hlater : ∀ rule s a s', rules rule s = .ok (a, s') → s.Later g s')
    (hrules : ∀ rule s a s' v, rules rule s = .ok (a, s') → s.Nested → s.Shows v →
      rule.Fits s.top v → s'.Nested)
    {script : Script} {s s' : State} {a : Bool} {v : Glimpse}
    (hrun : script.run g rules s = .ok (a, s')) (hs : s.Nested) (hv : s.Shows v)
    (hheeds : script.Heeds s.top v) : s'.Nested := by
  have hkeeps : script.KeepsNesting s fun _ s' => s'.Nested :=
    ⟨v, hheeds, hs, hv, fun _ _ hs' => hs'⟩
  exact run_sound (nestingAnalysis hlater hrules) hkeeps hrun trivial

/-- A rule keeps to the delimiters of the source wherever it may be called. -/
theorem Rule.run_nested {budget : Nat} {rule : Rule} {s s' : State} {a : Bool} {v : Glimpse}
    (hrun : rule.run g budget s = .ok (a, s')) (hs : s.Nested) (hv : s.Shows v)
    (hfits : rule.Fits s.top v) : s'.Nested := by
  induction budget generalizing rule s s' a v with
  | zero => cases hrun
  | succ budget ih =>
    exact Script.run_nested (fun _ _ _ _ => Rule.run_later)
      (fun _ _ _ _ _ hrun hs hv hfits => ih hrun hs hv hfits) hrun hs hv (Rule.heeds hfits)

/-- Where the delimiters among the tokens of a source are balanced, none is reported to be unclosed,
    however malformed the source is otherwise. -/
theorem parse_balanced {o : Options} {source : String} {p : Parsed}
    (hbalanced : balanced [] ((Token.significant (Token.lex source)).map (·.kind)) = true)
    (h : parse o source = .ok (.ok p)) :
    ∀ dg ∈ p.diagnostics, ∀ d : Delimiter, dg.problem ≠ d.unclosed := by
  obtain ⟨a, s, hrun, hfinish⟩ := parseLexed_eq_ok_iff.mp h
  obtain ⟨-, -, -, hreports⟩ := State.finish_eq_ok hfinish
  have hinitial : (State.initial (Token.lex source) o.stepLimit).Nested :=
    ⟨⟨[], hbalanced, List.Sublist.refl _⟩, by simp [State.initial]⟩
  -- A run begins with nothing open and nothing read.
  have hnested : s.Nested := Rule.run_nested hrun hinitial (State.shows_blind _) rfl
  intro dg hdg d hproblem
  rw [hreports] at hdg
  have hfalse := hnested.reports dg (Array.mem_toList_iff.mp hdg)
  rw [hproblem, d.isStructural_unclosed] at hfalse
  cases hfalse

/-- The parse gives a parenthesis up, and finds its closer where nothing is open. -/
theorem parse_balanced_givenUp : ∃ p,
    balanced [] ((Token.significant (Token.lex "f(;)")).map (·.kind)) = true ∧
      parse ⟨true, none, none⟩ "f(;)" = .ok (.ok p) ∧
      p.diagnostics.map (·.problem) = [.expectedToken, .expectedStatement] ∧
      ∀ dg ∈ p.diagnostics, ∀ d : Delimiter, dg.problem ≠ d.unclosed := by
  have hbalanced : balanced [] ((Token.significant (Token.lex "f(;)")).map (·.kind)) = true := by
    decide +kernel
  have hparse : parse ⟨true, none, none⟩ "f(;)" = .ok (.ok
      ⟨.node .program [.node .exprStmt [.node .memberExpr [.node .nameRef [.leaf .identifier "f"],
        .node .callArgs [.leaf .lParen "("]], .leaf .semiColon ";"],
        .node .error [.leaf .rParen ")"]],
      [{ Diagnostic.ofProblem .expectedToken ⟨2, 3, by decide⟩ with
          message := "expected `)` to close the argument list"
          expected := some "`)`", found := some "`;`" },
        { Diagnostic.ofProblem .expectedStatement ⟨3, 4, by decide⟩ with
          expected := some "a declaration or statement", found := some "`)`" }]⟩) := by
    decide +kernel
  exact ⟨_, hbalanced, hparse, rfl, parse_balanced hbalanced hparse⟩

end ScriptTree
