import ScriptTree.Proofs.Beside

/-!
# What follows the end of a text

Where a text ends with a semicolon, what comes behind it makes no difference to the rules: behind
the last semicolon there is nothing that they ask.  `Script.Minds` walks through a script and checks
that it looks ahead only where something of the text is sure to be left, or where it would complain
about the end of the text, and that a lookahead by several tokens does not go beyond a semicolon.

The statements are about parses that report nothing.  So at the end of the text a complaint need not
be followed, and what follows an opener has its closer ahead.

## Key results

- `Script.not_silent_of_doomed`: a script that needs something complains about the end of the text
- `Script.run_beside`: a script that minds the end of the text does the same, whatever follows
-/

namespace ScriptTree

/-- At the end of the text, the script complains or fails. -/
def Script.doomed : Script → Bool
  | .look _ next => (next .error).doomed
  | .fail _ => true
  | .bump _ => true
  | .complain _ _ => true
  | .remark _ _ => true
  | _ => false

namespace Rule

/-- Only called where something has to follow. -/
@[simp] def isInner : Rule → Bool
  | members | statements _ | discard _ | skipTo _ => true
  | _ => false

/-- May end with a semicolon.  All other rules look at what comes after them. -/
@[simp] def isTerminated : Rule → Bool
  | importDecl | member | statement | block | item => true
  | ifStmt terminated => terminated
  | _ => false

/-- Makes a node of what is in the frame already. -/
@[simp] def regroups : Rule → Bool
  | chain => true
  | accessors wrapped => !wrapped
  | _ => false

/-- Reads one item after the other. -/
@[simp] def isTop : Rule → Bool
  | program | imports | items => true
  | _ => false

end Rule

/-- The script minds the end of the text, with these kinds ahead at the start.

    * `alive`: something of the text is left at the end of the script
    * `own`: nothing else is in the frame
    * `sure`: something of the text is left now

    At the end of the script, `post` holds of whether something is left for sure. -/
def Script.Minds : Script → (alive own sure : Bool) → (Nat → Kind) → (Bool → Prop) → Prop
  | .done _, alive, _, sure, _, post => post (alive || sure)
  | .fail _, _, _, _, _, _ => True
  | .complain _ _, _, _, _, _, _ => True
  | .remark _ _, _, _, _, _, _ => True
  | .look n next, alive, own, sure, view, post =>
    (alive || sure || (next .error).doomed) = true ∧ (∀ i < n, view i ≠ .semiColon) ∧
      (next (view n)).Minds alive own true view post
  | .text next, alive, own, sure, view, post =>
    (alive || sure) = true ∧ ∀ text, (next text).Minds alive own true view post
  | .stopped next, alive, own, sure, view, post =>
    (alive || sure) = true ∧ ∀ b, (next b).Minds alive own true view post
  | .exhausted next, alive, own, sure, view, post => (next false).Minds alive own sure view post
  | .bump next, alive, own, _, view, post =>
    next.Minds alive own (decide (view 0 ≠ .semiColon)) (fun i => view (i + 1)) post
  | .flush next, alive, own, sure, view, post => next.Minds alive own sure view post
  | .node _ body next, alive, own, sure, view, post =>
    body.Minds alive true sure view fun sure => ∀ view, next.Minds alive own sure view post
  | .group body next, alive, own, sure, view, post =>
    body.Minds alive true sure view fun sure => ∀ view, next.Minds alive own sure view post
  | .wrap _ body next, alive, own, sure, view, post => own = true ∧
    body.Minds alive own sure view fun sure => ∀ view, next.Minds alive own sure view post
  -- A level that is refused cuts the parse short.
  | .deeper body next, alive, own, sure, view, post =>
    body.Minds alive own sure view fun sure => ∀ view, (next true).Minds alive own sure view post
  -- Within delimiters the closer is left.
  | .enclosed _ _ _ body next, alive, own, _, _, post =>
    (∀ view, body.Minds true own true view fun _ => True) ∧
      ∀ view, next.Minds alive own true view post
  | .call rule next, alive, own, sure, _, post =>
    (alive || sure || rule.script.doomed) = true ∧ (rule.isInner = true → alive = true) ∧
      (rule.regroups = true → own = true) ∧ rule.isTop = false ∧
        ∀ a view, (next a).Minds alive own (!rule.isTerminated) view post

/-! ## Runs -/

section

variable {g e : Setting} {x : Surplus} {s s' t : State}

/-- Something of the text is left, unless nothing follows the text. -/
def Surplus.Covers (x : Surplus) (s : State) : Prop := x.ahead = [] ∨ s.reading.input ≠ []

/-- The text ends with a semicolon, unless nothing follows it. -/
def Surplus.Seals (x : Surplus) (s : State) : Prop :=
  x.ahead = [] ∨ ∀ p ∈ s.reading.input.getLast?, p.1 = .semiColon

/-- What covers a later state covers an earlier one. -/
theorem Surplus.Covers.of_suffix (h : x.Covers s')
    (hsuffix : s'.reading.input <:+ s.reading.input) : x.Covers s := by
  refine h.imp_right fun hne hnil => hne ?_
  rw [hnil] at hsuffix
  exact List.suffix_nil.mp hsuffix

/-- What seals an earlier state seals a later one. -/
theorem Surplus.Seals.of_suffix (h : x.Seals s) (hsuffix : s'.reading.input <:+ s.reading.input) :
    x.Seals s' := by
  refine h.imp_right fun hlast p hp => hlast p ?_
  obtain ⟨before, hbefore⟩ := hsuffix
  rw [← hbefore, List.getLast?_append, hp]
  rfl

/-- A token that is no semicolon is not the last one. -/
theorem Surplus.Seals.covers (h : x.Seals s) {p : Kind × String}
    (hinput : s.reading.input = p :: s'.reading.input) (hp : p.1 ≠ .semiColon) : x.Covers s' := by
  refine h.imp_right fun hlast hnil => hp (hlast p ?_)
  rw [hinput, hnil]
  rfl

/-- A lookahead that does not go beyond a semicolon sees nothing of what follows the text. -/
theorem Surplus.Covers.kindAt (h : x.Covers s) (hseals : x.Seals s) {n : Nat}
    (hview : ∀ i < n, kindAt s.reading.input i ≠ .semiColon) :
    kindAt (s.reading.input ++ x.ahead) n = kindAt s.reading.input n := by
  obtain hnone | hne := h
  · rw [hnone, List.append_nil]
  obtain hnone | hlast := hseals
  · rw [hnone, List.append_nil]
  by_cases hn : n < s.reading.input.length
  · exact kindAt_append hn
  · -- The last token is a semicolon, and would have been seen.
    exfalso
    have hpos : 0 < s.reading.input.length := List.length_pos_iff.mpr hne
    refine hview (s.reading.input.length - 1) (by omega) ?_
    have hget : s.reading.input[s.reading.input.length - 1]? = s.reading.input.getLast? :=
      (List.getLast?_eq_getElem?).symm
    cases hp : s.reading.input.getLast? with
    | none => exact absurd (List.getLast?_eq_none_iff.mp hp) hne
    | some p =>
      have hkind := hlast p hp
      rw [ScriptTree.kindAt, hget, hp]
      exact hkind

/-- Where something of the text is left, the current text is of it. -/
theorem Surplus.Covers.frontText (h : x.Covers s) :
    frontText (s.reading.input ++ x.ahead) = frontText s.reading.input := by
  obtain hnone | hne := h
  · rw [hnone, List.append_nil]
  · rw [ScriptTree.frontText, List.head?_append_of_ne_nil _ hne, ScriptTree.frontText]

/-- Where something of the text is left, the surplus makes no difference to whether the end is
    reached. -/
theorem Surplus.Covers.isEmpty (h : x.Covers s) :
    (s.reading.input ++ x.ahead).isEmpty = s.reading.input.isEmpty := by
  obtain hnone | hne := h
  · rw [hnone, List.append_nil]
  · cases hinput : s.reading.input with
    | nil => exact absurd hinput hne
    | cons p input => rfl

/-- At the end of the text a doomed script reports something. -/
theorem Script.not_silent_of_doomed {rules : Rule → State → Reply}
    (hextends : ∀ rule s a s', rules rule s = .ok (a, s') → s.Extends s') {script : Script}
    (hdoomed : script.doomed = true) (hempty : s.reading.input = []) (hreported : s.reported = none)
    {a : Bool} (hrun : script.run g rules s = .ok (a, s')) : ¬ s'.Silent := by
  intro hsilent
  -- Induction on the script, along the looks; each of the two ends is decided by one step.
  induction script generalizing s with
  | look n next ih =>
    obtain ⟨k, s₁, hlook, hrun⟩ := run_look_eq_ok_iff.mp hrun
    obtain ⟨-, hk, rfl⟩ := State.look_eq_ok_iff.mp hlook
    have hreading : State.reading { s.skip g with patience := s.patience - 1 } = s.reading :=
      (State.reading_congr rfl rfl).trans State.reading_skip
    rw [← State.kindAt_reading, hempty] at hk
    subst hk
    refine ih _ hdoomed ?_ ?_ hrun
    · rw [hreading, hempty]
    · show (s.skip g).reported = none
      rw [State.skip_reported, hreported]
  | fail fault => cases hrun
  -- There is nothing left to consume.
  | bump next =>
    obtain ⟨s₁, hbump, -⟩ := run_bump_eq_ok_iff.mp hrun
    obtain ⟨u, us, hrest, -⟩ := State.bump_eq_ok_iff.mp hbump
    rw [State.reading_input_of_rest hrest] at hempty
    cases hempty
  | complain c next =>
    obtain ⟨s₁, hcomplain, hrun⟩ := run_complain_eq_ok_iff.mp hrun
    exact State.not_silent_complain hreported hcomplain
      (hsilent.of_extends (run_extends hextends hrun))
  | remark problem next =>
    have hnext : next.run g rules (s.remark g problem) = .ok (a, s') := hrun
    exact State.not_silent_remark hreported problem
      (hsilent.of_extends (run_extends hextends hnext))
  | _ => cases hdoomed

/-- What rules do to two parses side by side, if the one reports nothing. -/
def Rule.Pairs (rules rules' : Rule → State → Reply) : Prop :=
  ∀ rule s t a s' x, rule.isTop = false → s.Beside x t →
    (x.Covers s ∨ rule.script.doomed = true) → x.Seals s → (rule.regroups = true → x.behind = []) →
    (rule.isInner = true → x.Covers s') → rules rule s = .ok (a, s') → s'.Silent →
    ∃ t', rules' rule t = .ok (a, t') ∧ s'.Beside x t' ∧
      (x.Covers s' ∨ rule.isTerminated = true ∧ s'.patience = fullPatience)

/-- What the rules do on the side where the text ends. -/
structure Rule.Cautious (g : Setting) (rules : Rule → State → Reply) : Prop where
  kept : ∀ rule s a s', rules rule s = .ok (a, s') → s.Extends s'
  filed : ∀ rule s a s', rules rule s = .ok (a, s') → s.Filed → s'.Filed
  later : ∀ rule s a s', rules rule s = .ok (a, s') → s.Later g s'

/-- Two parses side by side as a script expects them that minds the end of the text.

    * the text ends with a semicolon
    * the kinds ahead are `view`
    * something of the text is left if that is `sure`; else a token was consumed just now
    * the frame holds nothing of before if it is the script's `own` -/
structure Surplus.Meets (x : Surplus) (own sure : Bool) (view : Nat → Kind) (s t : State) :
    Prop where
  beside : s.Beside x t
  sealed : x.Seals s
  sight : ∀ i, view i = kindAt s.reading.input i
  left : x.Covers s ∨ sure = false ∧ s.patience = fullPatience
  own : own = true → x.behind = []

/-- The two parses go on with the same text ahead, and something of it is left. -/
theorem Surplus.Meets.covered {own sure : Bool} {view : Nat → Kind} {s₁ t₁ : State}
    (h : x.Meets own sure view s t) (hcovers : x.Covers s) (hbeside : s₁.Beside x t₁)
    (hreading : s₁.reading = s.reading) : x.Meets own true view s₁ t₁ where
  beside := hbeside
  sealed := h.sealed.of_suffix (by rw [hreading])
  sight i := by rw [hreading, h.sight]
  left := .inl (by rwa [Surplus.Covers, hreading])
  own := h.own

/-! ### Step by step

A step on the side where the text ends is a step on the side where more follows, and the two are as
the rest of the script expects them. -/

namespace Script

variable {rules rules' : Rule → State → Reply} {body next : Script} {alive own sure : Bool}
  {view : Nat → Kind} {post : Bool → Prop} {a b : Bool}

/-- A script that minds the end of the text does the same, whatever follows the text. -/
def RunsBeside (g e : Setting) (rules rules' : Rule → State → Reply) (script : Script) : Prop :=
  ∀ {alive own sure : Bool} {view : Nat → Kind} {post : Bool → Prop} {a : Bool} {x : Surplus}
    {s s' t : State}, script.Minds alive own sure view post → x.Meets own sure view s t →
    (alive = true → x.Covers s') → script.run g rules s = .ok (a, s') → s'.Silent →
    ∃ t' sure', script.run e rules' t = .ok (a, t') ∧ s'.Beside x t' ∧ post sure' ∧
      (x.Covers s' ∨ sure' = false ∧ s'.patience = fullPatience)

/-- A script that has reported nothing in the end had reported nothing before. -/
private theorem silent_before (hrules : Rule.Cautious g rules) (script : Script)
    (hrun : script.run g rules s = .ok (a, s')) (hsilent : s'.Silent) : s.Silent :=
  hsilent.of_extends (run_extends hrules.kept hrun)

/-- A script leaves a part of the labels ahead, from some label on. -/
private theorem run_suffix (hrules : Rule.Cautious g rules) {script : Script}
    (hrun : script.run g rules s = .ok (a, s')) : s'.reading.input <:+ s.reading.input :=
  (run_later hrules.later hrun).input_suffix

/-- Where a script that minds the end asks something, something of the text is left. -/
private theorem covers_of_minds (hrules : Rule.Cautious g rules) (script : Script)
    (hminds : (alive || sure || script.doomed) = true) (h : x.Meets own sure view s t)
    (halive : alive = true → x.Covers s') (hrun : script.run g rules s = .ok (a, s'))
    (hsilent : s'.Silent) : x.Covers s := by
  obtain hcovers | ⟨rfl, -⟩ := h.left
  · exact hcovers
  rw [Bool.or_false, Bool.or_eq_true] at hminds
  obtain halive' | hdoomed := hminds
  · exact (halive halive').of_suffix (run_suffix hrules hrun)
  · refine .inr fun hempty => ?_
    exact not_silent_of_doomed hrules.kept hdoomed hempty h.beside.unreported hrun hsilent

/-- A lookahead that minds the end of the text sees the same beside it. -/
private theorem beside_look (hrules : Rule.Cautious g rules) (n : Nat) {next : Kind → Script}
    (hnext : ∀ k, (next k).RunsBeside g e rules rules') :
    (Script.look n next).RunsBeside g e rules rules' := by
  intro alive own sure view post a x s s' t hminds h halive hrun hsilent
  obtain ⟨hleft, hseen, hminds⟩ := hminds
  have hcovers := covers_of_minds hrules (.look n next) hleft h halive hrun hsilent
  obtain ⟨k, s₁, hlook, hrun⟩ := run_look_eq_ok_iff.mp hrun
  have hsame : kindAt (s.reading.input ++ x.ahead) n = kindAt s.reading.input n :=
    hcovers.kindAt h.sealed fun i hi => by rw [← h.sight]; exact hseen i hi
  obtain ⟨t₁, hlook', h₁⟩ := h.beside.look (e := e) hlook
  obtain ⟨hk, -, hreading⟩ := h.beside.waits.look hlook
  rw [hsame, ← hk] at hlook'
  have hminds₁ : (next k).Minds alive own true view post := by rwa [hk, ← h.sight]
  obtain ⟨t', sure', hrun', h'⟩ :=
    hnext k hminds₁ (h.covered hcovers h₁ hreading) halive hrun hsilent
  exact ⟨t', sure', run_look_eq_ok_iff.mpr ⟨k, t₁, hlook', hrun'⟩, h'⟩

/-- The text of the current token is the same beside the surplus. -/
private theorem beside_text (hrules : Rule.Cautious g rules) {next : String → Script}
    (hnext : ∀ text, (next text).RunsBeside g e rules rules') :
    (Script.text next).RunsBeside g e rules rules' := by
  intro alive own sure view post a x s s' t hminds h halive hrun hsilent
  obtain ⟨hleft, hminds⟩ := hminds
  have hcovers := covers_of_minds hrules (.text next) (by rw [hleft, Bool.true_or]) h halive hrun
    hsilent
  have hsame : (t.skip e).frontText = (s.skip g).frontText := by
    rw [← State.frontText_reading, ← State.frontText_reading, h.beside.input, hcovers.frontText]
  rw [Script.run] at hrun
  show ∃ t' sure', (next (t.skip e).frontText).run e rules' (t.skip e) = .ok (a, t') ∧ _
  rw [hsame]
  exact hnext _ (hminds _) (h.covered hcovers h.beside.skip State.reading_skip) halive hrun hsilent

/-- Where something is sure to be left, the parse has not come to its end, on either side. -/
private theorem beside_stopped (hrules : Rule.Cautious g rules) {next : Bool → Script}
    (hnext : ∀ b, (next b).RunsBeside g e rules rules') :
    (Script.stopped next).RunsBeside g e rules rules' := by
  intro alive own sure view post a x s s' t hminds h halive hrun hsilent
  obtain ⟨hleft, hminds⟩ := hminds
  have hcovers := covers_of_minds hrules (.stopped next) (by rw [hleft, Bool.true_or]) h halive
    hrun hsilent
  rw [Script.run] at hrun
  -- Neither side has run out of anything, so the end of the input decides.
  have hskipped := silent_before hrules _ hrun hsilent
  have hunhindered := h.beside.unhindered
  have hsame : (t.skip e).isStopped = (s.skip g).isStopped := by
    rw [State.isStopped_reading hunhindered.supplied hunhindered.skip.running,
      State.isStopped_reading (by rw [← hskipped.supplied, State.skip_exhausted]) hskipped.running,
      h.beside.input, hcovers.isEmpty]
  show ∃ t' sure', (next (t.skip e).isStopped).run e rules' (t.skip e) = .ok (a, t') ∧ _
  rw [hsame]
  exact hnext _ (hminds _) (h.covered hcovers h.beside.skip State.reading_skip) halive hrun hsilent

private theorem beside_exhausted (hrules : Rule.Cautious g rules) {next : Bool → Script}
    (hnext : ∀ b, (next b).RunsBeside g e rules rules') :
    (Script.exhausted next).RunsBeside g e rules rules' := by
  intro alive own sure view post a x s s' t hminds h halive hrun hsilent
  have hsupplied := (silent_before hrules (.exhausted next) hrun hsilent).supplied
  rw [Script.run, hsupplied] at hrun
  show ∃ t' sure', (next t.exhausted.isSome).run e rules' t = .ok (a, t') ∧ _
  rw [h.beside.unhindered.supplied]
  exact hnext _ hminds h halive hrun hsilent

/-- The same token is consumed on both sides. -/
private theorem beside_bump (hnext : next.RunsBeside g e rules rules') :
    (Script.bump next).RunsBeside g e rules rules' := by
  intro alive own sure view post a x s s' t hminds h halive hrun hsilent
  obtain ⟨s₁, hbump, hrun⟩ := run_bump_eq_ok_iff.mp hrun
  obtain ⟨t₁, hbump', h₁⟩ := h.beside.bump (e := e) hbump
  obtain ⟨-, k, text, hinput, -⟩ := h.beside.waits.bump hbump
  have hfront : view 0 = k := by
    rw [h.sight, hinput]
    rfl
  have hpatience : s₁.patience = fullPatience := by
    obtain ⟨u, us, -, rfl⟩ := State.bump_eq_ok_iff.mp hbump
    rfl
  -- Behind a token that is no semicolon there is more of the text.
  have hleft : x.Covers s₁ ∨ decide (view 0 ≠ .semiColon) = false ∧ s₁.patience = fullPatience := by
    by_cases hk : k = .semiColon
    · exact .inr ⟨by rw [hfront, hk]; rfl, hpatience⟩
    · exact .inl (h.sealed.covers hinput hk)
  -- The runs meet again behind the token, with patience full on both sides.
  have hmeets : x.Meets own (decide (view 0 ≠ .semiColon)) (fun i => view (i + 1)) s₁ t₁ :=
    { beside := h₁
      sealed := h.sealed.of_suffix (by rw [hinput]; exact List.suffix_cons _ _)
      sight := fun i => by rw [h.sight, hinput, kindAt_cons_succ]
      left := hleft
      own := h.own }
  obtain ⟨t', sure', hrun', h'⟩ := hnext hminds hmeets halive hrun hsilent
  exact ⟨t', sure', run_bump_eq_ok_iff.mpr ⟨t₁, hbump', hrun'⟩, h'⟩

private theorem beside_flush (hnext : next.RunsBeside g e rules rules') :
    (Script.flush next).RunsBeside g e rules rules' := by
  intro alive own sure view post a x s s' t hminds h halive hrun hsilent
  have hskipped := h.beside.skip (g := g) (e := e)
  have hreading : (s.skip g).drain.reading = s.reading := by
    rw [State.reading_drain hskipped.waits, State.reading_skip]
  have hpatience : (s.skip g).drain.patience = s.patience := State.skip_patience
  have hmeets : x.Meets own sure view (s.skip g).drain (t.skip e).drain :=
    { beside := hskipped.drain
      sealed := h.sealed.of_suffix (by rw [hreading])
      sight := fun i => by rw [hreading, h.sight]
      left := by
        rw [Surplus.Covers, hreading]
        exact h.left.imp_right fun hfull => ⟨hfull.1, hpatience.trans hfull.2⟩
      own := h.own }
  exact hnext hminds hmeets halive hrun hsilent

/-- A body runs on both sides, what it makes is put into the frames `f` and `f'`, and the rest
    follows.  This is what the three steps that make nodes have in common. -/
private theorem beside_framed (hrules : Rule.Cautious g rules)
    (hbody : body.RunsBeside g e rules rules') (hnext : next.RunsBeside g e rules rules')
    {own' : Bool} (x : Surplus) {y : Surplus} {s₀ s₁ t₀ : State}
    (hminds : body.Minds alive own' sure view fun sure =>
      ∀ view, next.Minds alive own sure view post)
    (h : y.Meets own' sure view s₀ t₀) (hahead : y.ahead = x.ahead)
    (halive : alive = true → x.Covers s') (hown : own = true → x.behind = [])
    (f : Array Tree) (f' : State → Array Tree)
    (hframe : ∀ t₁, s₁.Beside y t₁ →
      ({ s₁ with frame := f } : State).Beside x { t₁ with frame := f' t₁ })
    (hrun : body.run g rules s₀ = .ok (b, s₁))
    (hrun' : next.run g rules { s₁ with frame := f } = .ok (a, s')) (hsilent : s'.Silent) :
    ∃ t₁ t' sure', body.run e rules' t₀ = .ok (b, t₁) ∧
      next.run e rules' { t₁ with frame := f' t₁ } = .ok (a, t') ∧ s'.Beside x t' ∧ post sure' ∧
      (x.Covers s' ∨ sure' = false ∧ s'.patience = fullPatience) := by
  -- Nothing is reported up to the end, hence nothing is at the end of the body.
  have hsilent₁ : s₁.Silent := by
    have hframed := silent_before hrules next hrun' hsilent
    exact ⟨hframed.supplied, hframed.running, hframed.unreported⟩
  have hcovers_iff {u : State} : y.Covers u ↔ x.Covers u := by
    rw [Surplus.Covers, Surplus.Covers, hahead]
  have hrest : s'.reading.input <:+ ({ s₁ with frame := f } : State).reading.input :=
    run_suffix hrules hrun'
  have halive₁ : alive = true → y.Covers s₁ := fun hlive =>
    hcovers_iff.mpr ((halive hlive).of_suffix hrest)
  -- The body runs beside its counterpart, and from there on the rest does.
  obtain ⟨t₁, sure₁, hbody', h₁, hminds₁, hleft₁⟩ := hbody hminds h halive₁ hrun hsilent₁
  have hsealed : x.Seals s₀ := by
    have hsealed := h.sealed
    rwa [Surplus.Seals, hahead] at hsealed
  have hsealed₁ : x.Seals s₁ := hsealed.of_suffix (run_suffix hrules hrun)
  have hmeets : x.Meets own sure₁ (kindAt s₁.reading.input) { s₁ with frame := f }
      { t₁ with frame := f' t₁ } :=
    { beside := hframe t₁ h₁
      sealed := hsealed₁
      sight := fun _ => rfl
      left := hleft₁.imp_left hcovers_iff.mp
      own := hown }
  obtain ⟨t', sure', hnext', h'⟩ := hnext (hminds₁ _) hmeets halive hrun' hsilent
  exact ⟨t₁, t', sure', hbody', hnext', h'⟩

/-- A frame of its own is all that a body finds in it. -/
private theorem meets_emptied (h : x.Meets own sure view s t) :
    ({ x with behind := [] } : Surplus).Meets true sure view { s.drain with frame := #[] }
      { t.drain with frame := #[] } where
  beside := h.beside.emptied
  sealed := h.sealed
  sight := h.sight
  left := h.left
  own _ := rfl

/-- A node is the same on both sides if its body is. -/
private theorem beside_node (hrules : Rule.Cautious g rules) (k : Kind)
    (hbody : body.RunsBeside g e rules rules') (hnext : next.RunsBeside g e rules rules') :
    (Script.node k body next).RunsBeside g e rules rules' := by
  intro alive own sure view post a x s s' t hminds h halive hrun hsilent
  obtain ⟨b, s₁, hrun, hrun'⟩ := run_node_eq_ok_iff.mp hrun
  obtain ⟨t₁, t', sure', hbody', hnext', h'⟩ := beside_framed hrules hbody hnext x hminds
    (meets_emptied h) rfl halive h.own _ (fun t₁ => t.drain.frame.push (.node k t₁.frame.toList))
    (fun t₁ h₁ => h.beside.pushNode h₁ k) hrun hrun' hsilent
  exact ⟨t', sure', run_node_eq_ok_iff.mpr ⟨b, t₁, hbody', hnext'⟩, h'⟩

/-- A group is the same on both sides if its body is. -/
private theorem beside_group (hrules : Rule.Cautious g rules)
    (hbody : body.RunsBeside g e rules rules') (hnext : next.RunsBeside g e rules rules') :
    (Script.group body next).RunsBeside g e rules rules' := by
  intro alive own sure view post a x s s' t hminds h halive hrun hsilent
  obtain ⟨b, s₁, hrun, hrun'⟩ := run_group_eq_ok_iff.mp hrun
  obtain ⟨t₁, t', sure', hbody', hnext', h'⟩ := beside_framed hrules hbody hnext x hminds
    (meets_emptied h) rfl halive h.own _ (fun t₁ => t.drain.frame ++ t₁.frame)
    (fun t₁ h₁ => h.beside.appendFrame h₁) hrun hrun' hsilent
  exact ⟨t', sure', run_group_eq_ok_iff.mpr ⟨b, t₁, hbody', hnext'⟩, h'⟩

/-- What wraps is the same on both sides, since it owns the frame. -/
private theorem beside_wrap (hrules : Rule.Cautious g rules) (k : Kind)
    (hbody : body.RunsBeside g e rules rules') (hnext : next.RunsBeside g e rules rules') :
    (Script.wrap k body next).RunsBeside g e rules rules' := by
  intro alive own sure view post a x s s' t hminds h halive hrun hsilent
  obtain ⟨hown, hminds⟩ := hminds
  obtain ⟨b, s₁, hrun, hrun'⟩ := run_wrap_eq_ok_iff.mp hrun
  obtain ⟨t₁, t', sure', hbody', hnext', h'⟩ := beside_framed hrules hbody hnext x hminds h rfl
    halive h.own _ (fun t₁ => #[.node k t₁.frame.toList])
    (fun t₁ h₁ => h₁.wrapped (h.own hown) k) hrun hrun' hsilent
  exact ⟨t', sure', run_wrap_eq_ok_iff.mpr ⟨b, t₁, hbody', hnext'⟩, h'⟩

/-- The levels are the same on both sides, and so is their limit. -/
private theorem beside_deeper (hrules : Rule.Cautious g rules)
    (hlimit : e.depthLimit = g.depthLimit) {next : Bool → Script}
    (hbody : body.RunsBeside g e rules rules')
    (hnext : ∀ b, (next b).RunsBeside g e rules rules') :
    (Script.deeper body next).RunsBeside g e rules rules' := by
  intro alive own sure view post a x s s' t hminds h halive hrun hsilent
  -- A level that is refused is reported.
  obtain ⟨s₁, henter, hrun⟩ | ⟨s₁, b, s₂, henter, hrun, hrun'⟩ := run_deeper_eq_ok_iff.mp hrun
  · exact absurd (silent_before hrules _ hrun hsilent) (State.not_silent_enter henter)
  -- The body has not read past what the rest is left with.
  have hrest : s'.reading.input <:+ s₂.leave.reading.input := run_suffix hrules hrun'
  have halive₂ : alive = true → x.Covers s₂ := fun hlive => (halive hlive).of_suffix hrest
  have hsilent₂ : s₂.Silent := by
    have hleft := silent_before hrules _ hrun' hsilent
    exact ⟨hleft.supplied, hleft.running, hleft.unreported⟩
  obtain ⟨t₁, henter', h₁⟩ := h.beside.enter hlimit henter
  have hreading : s₁.reading = s.reading := (h.beside.waits.enter henter).2
  have hpatience : s₁.patience = fullPatience := by
    obtain ⟨-, rfl⟩ := State.enter_eq_true_iff.mp henter
    rfl
  -- To enter refills the patience on both sides and leaves the tokens as they are.
  have hmeets₁ : x.Meets own sure view s₁ t₁ :=
    { beside := h₁
      sealed := h.sealed.of_suffix (by rw [hreading])
      sight := fun i => by rw [hreading, h.sight]
      left := by
        rw [Surplus.Covers, hreading]
        exact h.left.imp_right fun hfull => ⟨hfull.1, hpatience⟩
      own := h.own }
  obtain ⟨t₂, sure₂, hbody', h₂, hminds₂, hleft₂⟩ := hbody hminds hmeets₁ halive₂ hrun hsilent₂
  have hsealed₂ : x.Seals s₂ := hmeets₁.sealed.of_suffix (run_suffix hrules hrun)
  -- To leave changes only the depth, on both sides.
  have hmeets₂ : x.Meets own sure₂ (kindAt s₂.reading.input) s₂.leave t₂.leave :=
    { beside := h₂.leave
      sealed := hsealed₂
      sight := fun _ => rfl
      left := hleft₂.imp_right fun hfull => ⟨hfull.1, rfl⟩
      own := h.own }
  obtain ⟨t', sure', hnext', h'⟩ := hnext true (hminds₂ _) hmeets₂ halive hrun' hsilent
  exact ⟨t', sure', run_deeper_eq_ok_iff.mpr (.inr ⟨t₁, b, t₂, henter', hbody', hnext'⟩), h'⟩

/-- The body of what is enclosed has its closer ahead, so the text goes on in it. -/
private theorem beside_enclosed (hrules : Rule.Cautious g rules) (d : Delimiter)
    (construct : String) (ifEmpty : Option Problem) (hbody : body.RunsBeside g e rules rules')
    (hnext : next.RunsBeside g e rules rules') :
    (Script.enclosed d construct ifEmpty body next).RunsBeside g e rules rules' := by
  intro alive own sure view post a x s s' t hminds h halive hrun hsilent
  obtain ⟨hbodyMinds, hnextMinds⟩ := hminds
  obtain ⟨s₁, b, s₂, s₃, s₄, hopen, hrun, hclose, hempty, hrun'⟩ := run_enclosed_eq_ok_iff.mp hrun
  -- Silence of the whole run is silence of each of its parts.
  have hsilent₄ := silent_before hrules _ hrun' hsilent
  have hsilent₃ := hsilent₄.of_extends (State.extends_lasting.closeEmpty hempty)
  have hsilent₂ : s₂.Silent := hsilent₃.of_extends (State.extends_lasting.closeDelimiter hclose)
  obtain ⟨t₁, hopen', h₁⟩ := h.beside.openDelimiter (e := e) hopen
  have hsealed₁ : x.Seals s₁ := by
    obtain ⟨-, k, text, hinput, -⟩ := h.beside.waits.openDelimiter hopen
    exact h.sealed.of_suffix (by rw [hinput]; exact List.suffix_cons _ _)
  have hsealed₂ : x.Seals s₂ := hsealed₁.of_suffix (run_suffix hrules hrun)
  -- The closer is ahead, and it is no semicolon.
  have hreported₂ : s₂.reported = none :=
    hsilent₂.reported (run_filed hrules.filed (fun _ => h₁.unreported) hrun)
  obtain ⟨text, hinput⟩ := hsilent₃.input_closer hreported₂ hclose
  have hcovers₂ : x.Covers s₂ := by
    refine .inr fun hnil => ?_
    rw [hinput] at hnil
    cases hnil
  have hcovers₃ : x.Covers s₃ := hsealed₂.covers hinput (by cases d <;> simp [Delimiter.closer])
  have hmeets₁ : x.Meets own true (kindAt s₁.reading.input) s₁ t₁ :=
    { beside := h₁
      sealed := hsealed₁
      sight := fun _ => rfl
      left := .inl (hcovers₂.of_suffix (run_suffix hrules hrun))
      own := h.own }
  -- Body, closer and the check for emptiness, each beside its counterpart.
  obtain ⟨t₂, -, hbody', h₂, -, -⟩ :=
    hbody (hbodyMinds _) hmeets₁ (fun _ => hcovers₂) hrun hsilent₂
  obtain ⟨t₃, hclose', h₃⟩ := h₂.closeDelimiter (e := e) hclose hsilent₃
  obtain ⟨rfl, hempty'⟩ := h₃.closeEmpty (e := e) ((t.skip e).frontSpan e) hempty hsilent₄
  have hmeets₃ : x.Meets own true (kindAt s₄.reading.input) s₄ t₃ :=
    { beside := h₃
      sealed := hsealed₂.of_suffix (by rw [hinput]; exact List.suffix_cons _ _)
      sight := fun _ => rfl
      left := .inl hcovers₃
      own := h.own }
  obtain ⟨t', sure', hnext', h'⟩ := hnext (hnextMinds _) hmeets₃ halive hrun' hsilent
  exact ⟨t', sure', run_enclosed_eq_ok_iff.mpr
    ⟨t₁, b, t₂, t₃, t₃, hopen', hbody', hclose', hempty', hnext'⟩, h'⟩

/-- A rule is called with the same outlook on both sides. -/
private theorem beside_call (hrules : Rule.Cautious g rules) (hpairs : Rule.Pairs rules rules')
    (rule : Rule) {next : Bool → Script} (hnext : ∀ a, (next a).RunsBeside g e rules rules') :
    (Script.call rule next).RunsBeside g e rules rules' := by
  intro alive own sure view post a x s s' t hminds h halive hrun hsilent
  obtain ⟨hleft, hinner, hwraps, htop, hminds⟩ := hminds
  obtain ⟨b, s₁, hcall, hrun⟩ := run_call_eq_ok_iff.mp hrun
  have hsilent₁ := silent_before hrules _ hrun hsilent
  have hrest : s₁.reading.input <:+ s.reading.input := (hrules.later _ _ _ _ hcall).input_suffix
  -- The rule is covered by the text, or it is bound to report something at its end.
  have hleft₀ : x.Covers s ∨ rule.script.doomed = true := by
    obtain hcovers | ⟨rfl, -⟩ := h.left
    · exact .inl hcovers
    rw [Bool.or_false, Bool.or_eq_true] at hleft
    exact hleft.imp_left fun hlive =>
      (halive hlive).of_suffix ((run_suffix hrules hrun).trans hrest)
  obtain ⟨t₁, hcall', h₁, hleft₁⟩ := hpairs _ _ _ _ _ _ htop h.beside hleft₀ h.sealed
    (fun hwrapping => h.own (hwraps hwrapping))
    (fun hin => (halive (hinner hin)).of_suffix (run_suffix hrules hrun)) hcall hsilent₁
  have hmeets₁ : x.Meets own (!rule.isTerminated) (kindAt s₁.reading.input) s₁ t₁ :=
    { beside := h₁
      sealed := h.sealed.of_suffix hrest
      sight := fun _ => rfl
      left := hleft₁.imp_right fun hfull => ⟨by rw [hfull.1]; rfl, hfull.2⟩
      own := h.own }
  obtain ⟨t', sure', hrun', h'⟩ := hnext b (hminds b _) hmeets₁ halive hrun hsilent
  exact ⟨t', sure', run_call_eq_ok_iff.mpr ⟨b, t₁, hcall', hrun'⟩, h'⟩

end Script

/-- A script that minds the end of the text does the same, whatever follows the text. -/
theorem Script.run_beside (hlimit : e.depthLimit = g.depthLimit)
    {rules rules' : Rule → State → Reply} (hpairs : Rule.Pairs rules rules')
    (hrules : Rule.Cautious g rules) (script : Script) : script.RunsBeside g e rules rules' := by
  -- Induction on the script, one lemma for each constructor.
  induction script with
  | done answer =>
    intro alive own sure view post a x s s' t hminds h halive hrun hsilent
    cases hrun
    refine ⟨t, _, rfl, h.beside, hminds, ?_⟩
    cases alive with
    | false => exact h.left
    | true => exact .inl (halive rfl)
  | fail fault =>
    intro alive own sure view post a x s s' t hminds h halive hrun hsilent
    cases hrun
  | look n next ih => exact beside_look hrules n ih
  | text next ih => exact beside_text hrules ih
  | stopped next ih => exact beside_stopped hrules ih
  | exhausted next ih => exact beside_exhausted hrules ih
  | bump next ih => exact beside_bump ih
  | flush next ih => exact beside_flush ih
  -- A script that reports something does not end silently.
  | complain c next ih =>
    intro alive own sure view post a x s s' t hminds h halive hrun hsilent
    obtain ⟨s₁, hcomplain, hrun⟩ := run_complain_eq_ok_iff.mp hrun
    exact absurd (silent_before hrules _ hrun hsilent)
      (State.not_silent_complain h.beside.unreported hcomplain)
  | remark problem next ih =>
    intro alive own sure view post a x s s' t hminds h halive hrun hsilent
    rw [Script.run] at hrun
    exact absurd (silent_before hrules _ hrun hsilent)
      (State.not_silent_remark h.beside.unreported problem)
  | node k body next ihbody ihnext => exact beside_node hrules k ihbody ihnext
  | group body next ihbody ihnext => exact beside_group hrules ihbody ihnext
  | wrap k body next ihbody ihnext => exact beside_wrap hrules k ihbody ihnext
  | deeper body next ihbody ihnext => exact beside_deeper hrules hlimit ihbody ihnext
  | enclosed d construct ifEmpty body next ihbody ihnext =>
    exact beside_enclosed hrules d construct ifEmpty ihbody ihnext
  | call rule next ih => exact beside_call hrules hpairs rule ih

end

end ScriptTree
