import ScriptTree.Proofs.Carrying
import ScriptTree.Proofs.Succession

/-!
# Routines are balanced

Whatever a routine opens it closes: delimiters, levels of nesting and nodes.  It may return early,
be refused a level, or come to the end of a parse that was halted or ran out of a resource; in each
case what encloses the routine finds things as it left them, except that tokens have been read and
reports added.

No step of a routine is balanced by itself, and nothing in a builder makes the steps come in pairs.
But a routine does what its function of the grammar does, and there each opening step encloses a
body and is followed by the step that closes it.

## Key results

- `Script.build_balanced`: a script is balanced on a builder if the rules it calls are
- `Routine.run_balanced`: a routine is balanced
-/

namespace ScriptTree

/-! ## States -/

/-- What the state after a routine has in common with the one before it. -/
structure State.Balanced (s s' : State) : Prop where
  /-- The same delimiters are open. -/
  delimiters : s'.delimiters = s.delimiters
  /-- Rules are nested as deeply. -/
  depth : s'.depth = s.depth
  /-- No token is unread. -/
  index : s.index ≤ s'.index
  /-- No report is taken back or changed. -/
  reports : s.diagnostics.toList <+: s'.diagnostics.toList
  /-- What ran out first is remembered. -/
  exhausted : ∀ e, s.exhausted = some e → s'.exhausted = some e
  /-- A parse that has halted stays so. -/
  halted : s.halted = true → s'.halted = true

namespace State

variable {g : Setting} {s s' s'' : State}

/-- What changes neither delimiters nor levels, and reports nothing, is balanced. -/
theorem Balanced.of_eq (hdelimiters : s'.delimiters = s.delimiters) (hdepth : s'.depth = s.depth)
    (hindex : s'.index = s.index) (hreports : s'.diagnostics = s.diagnostics)
    (hexhausted : s'.exhausted = s.exhausted) (hhalted : s'.halted = s.halted) : s.Balanced s' where
  delimiters := hdelimiters
  depth := hdepth
  index := Nat.le_of_eq hindex.symm
  reports := by rw [hreports]
  exhausted e he := by rw [hexhausted, he]
  halted hs := by rw [hhalted, hs]

/-- To do nothing is balanced. -/
theorem Balanced.refl (s : State) : s.Balanced s := .of_eq rfl rfl rfl rfl rfl rfl

/-- What is balanced twice is balanced. -/
theorem Balanced.trans (h : s.Balanced s') (h' : s'.Balanced s'') : s.Balanced s'' where
  delimiters := h'.delimiters.trans h.delimiters
  depth := h'.depth.trans h.depth
  index := Nat.le_trans h.index h'.index
  reports := h.reports.trans h'.reports
  exhausted e he := h'.exhausted e (h.exhausted e he)
  halted hs := h'.halted (h.halted hs)

/-- The finished elements do not matter. -/
theorem Balanced.withFrame (h : s.Balanced s') (f : Array Tree) :
    s.Balanced { s' with frame := f } :=
  ⟨h.delimiters, h.depth, h.index, h.reports, h.exhausted, h.halted⟩

/-- Placing the skipped tokens opens and closes nothing. -/
private theorem balanced_drain (s : State) : s.Balanced s.drain := .of_eq rfl rfl rfl rfl rfl rfl

/-- Skipping tokens opens and closes nothing. -/
private theorem balanced_skip (g : Setting) (s : State) : s.Balanced (s.skip g) where
  delimiters := skip_delimiters
  depth := skip_depth
  index := by rw [skip_eq]; exact Nat.le_add_right _ _
  reports := (extends_skip g s).1
  exhausted e he := by rw [skip_exhausted, he]
  halted := (extends_skip g s).2.2.1

/-- A report opens and closes nothing. -/
private theorem balanced_reportAt (g : Setting) (s : State) (o : Nat) (d : Diagnostic) :
    s.Balanced (s.reportAt g o d) where
  delimiters := reportAt_delimiters o d
  depth := reportAt_depth o d
  index := Nat.le_of_eq (reportAt_index o d).symm
  reports := (extends_reportAt g s o d).1
  exhausted e he := by rw [reportAt_exhausted, he]
  halted := (extends_reportAt g s o d).2.2.1

/-- Consuming a token opens and closes nothing. -/
private theorem balanced_consume (t : Token) (ts : List Token) (s : State) :
    s.Balanced (s.consume t ts) where
  delimiters := by unfold consume spend; split <;> rfl
  depth := consume_depth t ts
  index := by unfold consume spend; split <;> exact Nat.le_succ _
  reports := by unfold consume spend; split <;> exact List.prefix_rfl
  -- Running out of steps is noted only where nothing is noted yet.
  exhausted e he := by unfold consume spend; split <;> simp [drain, he]
  halted := by unfold consume spend; split <;> exact id

/-- No step that the builder does not see opens or closes anything. -/
private theorem balanced_stepwise : Stepwise g Balanced where
  refl := .refl
  trans := .trans
  skip := balanced_skip g
  consume _ _ := balanced_consume _ _ _
  reportAt := balanced_reportAt g
  withPatience _ _ := .of_eq rfl rfl rfl rfl rfl rfl

/-- A level that is refused is noted, unless something else ran out before. -/
private theorem balanced_refused (h : s.enter g = (false, s')) : s.Balanced s' := by
  obtain ⟨-, rfl⟩ := enter_eq_false_iff.mp h
  exact ⟨rfl, rfl, Nat.le_refl _, List.prefix_rfl, fun e he => by simp [he], id⟩

/-- A level that is granted is given back. -/
private theorem balanced_granted {s₁ s₂ : State} (henter : s.enter g = (true, s₁))
    (h : s₁.Balanced s₂) : s.Balanced s₂.leave := by
  obtain ⟨-, rfl⟩ := enter_eq_true_iff.mp henter
  -- The body has given back its own levels, so this one is on top.
  have hdepth : s₂.depth = s.depth + 1 := h.depth
  exact ⟨h.delimiters, by rw [leave, hdepth, Nat.add_sub_cancel], h.index, h.reports, h.exhausted,
    h.halted⟩

/-- A delimiter that is noted is taken off. -/
private theorem balanced_delimited {s₁ : State} {x : Delimiter × Span}
    (h : Balanced { s with delimiters := x :: s.delimiters } s₁) :
    s.Balanced { s₁ with delimiters := s₁.delimiters.tail } :=
  ⟨by rw [h.delimiters, List.tail_cons], h.depth, h.index, h.reports, h.exhausted, h.halted⟩

end State

/-! ## Builders -/

/-- What the builder after a routine has in common with the one before it. -/
structure Build.Balanced (b b' : Build) : Prop extends State.Balanced b.toState b'.toState where
  /-- The same nodes are open. -/
  opened : b'.opened = b.opened

namespace Build

variable {b b' b'' : Build}

/-- To do nothing is balanced. -/
theorem Balanced.refl (b : Build) : b.Balanced b := ⟨.refl _, rfl⟩

/-- What is balanced twice is balanced. -/
theorem Balanced.trans (h : b.Balanced b') (h' : b'.Balanced b'') : b.Balanced b'' :=
  ⟨h.toBalanced.trans h'.toBalanced, h'.opened.trans h.opened⟩

end Build

/-- An action leaves everything balanced that it succeeds on. -/
def Action.Balanced {α : Type} (g : Setting) (x : Action α) : Prop :=
  ∀ b a b', x g b = .ok (a, b') → b.Balanced b'

namespace Action

variable {α β : Type} {g : Setting}

/-- An action that does nothing is balanced. -/
theorem Balanced.pure (a : α) : Balanced g (Pure.pure a) := by
  intro b a b' h
  cases h
  exact .refl b

/-- Actions in sequence are balanced if each is. -/
theorem Balanced.bind {x : Action α} {f : α → Action β} (hx : Balanced g x)
    (hf : ∀ a, Balanced g (f a)) : Balanced g (x >>= f) := by
  intro b c b' h
  rw [bind_apply] at h
  obtain ⟨⟨a, b₁⟩, hfirst, hrest⟩ := bind_eq_ok_iff.mp h
  exact (hx b a b₁ hfirst).trans (hf a b₁ c b' hrest)

/-- A step on the state leaves the open nodes alone. -/
private theorem balanced_onState {step : Setting → State → Except Fault (α × State)}
    (h : ∀ s a s', step g s = .ok (a, s') → s.Balanced s') : Balanced g (onState step) := by
  intro b a b' hb
  obtain ⟨s', hstep, rfl⟩ := onState_eq_ok_iff.mp hb
  exact ⟨h _ a s' hstep, rfl⟩

/-- A step of the state is a balanced action if it is balanced itself. -/
private theorem balanced_onState_unit {step : Setting → State → Except Fault State}
    (h : ∀ s s', step g s = .ok s' → s.Balanced s') :
    Balanced g (onState fun g s => do return ((), ← step g s)) := by
  intro b a b' hb
  obtain ⟨s', hstep, rfl⟩ := onState_unit_eq_ok_iff.mp hb
  exact ⟨h _ s' hstep, rfl⟩

/-- What a node encloses is balanced, and so is the node once it is finished. -/
private theorem balanced_finishNode {x : Action α} (hx : Balanced g x) {b b' : Build} {k : Kind}
    {n : Nat}
    (h : (do let _ ← x; finishNode) g { b with opened := ⟨k, n⟩ :: b.opened } = .ok ((), b')) :
    b.Balanced b' := by
  rw [bind_apply] at h
  obtain ⟨⟨a, b₁⟩, hbody, hfinish⟩ := bind_eq_ok_iff.mp h
  have hbalanced := hx _ a b₁ hbody
  -- The body has finished its own nodes, so this one is the innermost.
  have hopened : b₁.opened = ⟨k, n⟩ :: b.opened := hbalanced.opened
  dsimp only [finishNode] at hfinish
  rw [Build.finish, hopened] at hfinish
  cases hfinish
  exact ⟨hbalanced.toBalanced.withFrame _, rfl⟩

/-- A node that is opened is finished. -/
theorem Balanced.node (k : Kind) {x : Nat → Action α} (hx : ∀ mark, Balanced g (x mark)) :
    Balanced g (do startNode k; let _ ← x (← place); finishNode) := by
  intro b u b' h
  have hdrain : b.Balanced { b with toState := b.drain } := ⟨State.balanced_drain _, rfl⟩
  exact hdrain.trans (balanced_finishNode (hx b.drain.frame.size) h)

/-- So is a node that begins at a mark. -/
theorem Balanced.wrap (mark : Nat) (k : Kind) {x : Action α} (hx : Balanced g x) :
    Balanced g (do startNodeAt mark k; let _ ← x; finishNode) := by
  intro b u b' h
  rw [bind_apply, startNodeAt, Build.startAt] at h
  split at h
  · exact balanced_finishNode hx h
  · cases h

/-- A level that is granted is left again. -/
theorem Balanced.deeper {x : Action α} {y z : Action β} (hx : Balanced g x)
    (hy : Balanced g y) (hz : Balanced g z) :
    Balanced g (do
      if ← enterLevel then
        let _ ← x
        leaveLevel
        y
      else z) := by
  intro b u b' h
  rw [bind_apply, enterLevel, onState] at h
  cases henter : b.enter g with
  | mk granted s₁ =>
    rw [henter] at h
    cases granted with
    -- The level is refused: the depth is as before, and what follows is balanced.
    | false =>
      have hrefused : b.Balanced { b with toState := s₁ } := ⟨State.balanced_refused henter, rfl⟩
      exact hrefused.trans (hz _ u b' h)
    -- The level is entered, and left again behind the body.
    | true =>
      change (x >>= fun _ => leaveLevel >>= fun _ => y) g { b with toState := s₁ } =
        .ok (u, b') at h
      rw [bind_apply] at h
      obtain ⟨⟨a, b₂⟩, hbody, hrest⟩ := bind_eq_ok_iff.mp h
      have hbalanced := hx _ a b₂ hbody
      have hgranted : b.Balanced { b₂ with toState := b₂.leave } :=
        ⟨State.balanced_granted henter hbalanced.toBalanced, hbalanced.opened⟩
      exact hgranted.trans (hy _ u b' hrest)

/-- A delimiter that is noted is taken off again. -/
theorem Balanced.enclosed (d : Delimiter) (construct : String) {x : Action α}
    (hx : Balanced g x) :
    Balanced g (do
      pushDelimiter d
      let a ← x
      closeDelimiter d construct
      return a) := by
  intro b a b' h
  have hskip : b.Balanced { b with toState := b.skip g } := ⟨State.balanced_skip g _, rfl⟩
  refine hskip.trans ?_
  change (x >>= fun a => closeDelimiter d construct >>= fun _ => return a) g { b with
    toState := { b.skip g with
      delimiters := (d, (b.skip g).frontSpan g) :: (b.skip g).delimiters } } = .ok (a, b') at h
  rw [bind_apply] at h
  obtain ⟨⟨a₁, b₁⟩, hbody, hrest⟩ := bind_eq_ok_iff.mp h
  have hbalanced := hx _ a₁ b₁ hbody
  rw [bind_apply] at hrest
  obtain ⟨⟨u, b₂⟩, hclose, hreturn⟩ := bind_eq_ok_iff.mp hrest
  cases hreturn
  rw [closeDelimiter, onState_unit_eq_ok_iff] at hclose
  obtain ⟨s₂, hclose, rfl⟩ := hclose
  -- The body has taken off its own delimiters, so this one is the innermost.
  exact ⟨(State.balanced_delimited hbalanced.toBalanced).trans
    (State.balanced_stepwise.closeDelimiter hclose), hbalanced.opened⟩

/-- Looking ahead opens and closes nothing. -/
private theorem balanced_ahead (n : Nat) : Balanced g (ahead n) :=
  balanced_onState fun _ _ _ h => State.balanced_stepwise.look h

private theorem balanced_currentText : Balanced g currentText :=
  balanced_onState fun s _ _ h => by cases h; exact State.balanced_skip g s

private theorem balanced_currentSpan : Balanced g currentSpan :=
  balanced_onState fun s _ _ h => by cases h; exact State.balanced_skip g s

private theorem balanced_stopped : Balanced g stopped :=
  balanced_onState fun s _ _ h => by cases h; exact State.balanced_skip g s

private theorem balanced_exhausted : Balanced g exhausted :=
  balanced_onState fun s _ _ h => by cases h; exact .refl s

/-- Consuming the current token opens and closes nothing. -/
private theorem balanced_bump : Balanced g bump :=
  balanced_onState_unit fun _ _ h => State.balanced_stepwise.bump h

/-- Flushing opens and closes nothing. -/
private theorem balanced_flush : Balanced g flush :=
  balanced_onState fun s _ _ h => by
    cases h
    exact (State.balanced_skip g s).trans (State.balanced_drain _)

/-- A complaint opens and closes nothing. -/
private theorem balanced_complain (problem : Problem) (detail expected : Option String) :
    Balanced g (complain problem detail expected) :=
  balanced_onState_unit fun _ _ h => State.balanced_stepwise.complain h

/-- A warning opens and closes nothing. -/
private theorem balanced_remark (problem : Problem) : Balanced g (remark problem) :=
  balanced_onState fun _ _ _ h => by cases h; exact State.balanced_stepwise.remark problem

/-- The report on an empty block opens and closes nothing. -/
private theorem balanced_closeEmpty (ifEmpty : Option Problem) (answer : Bool) (opener : Span) :
    Balanced g (closeEmpty ifEmpty answer opener) :=
  balanced_onState_unit fun _ _ h => State.balanced_stepwise.closeEmpty h

/-- A checkpoint only remembers a place. -/
private theorem balanced_checkpoint : Balanced g checkpoint := by
  intro b n b' h
  cases h
  exact ⟨State.balanced_drain _, rfl⟩

end Action

variable {g : Setting}

/-- A script is balanced if the rules that it calls are. -/
theorem Script.build_balanced {rules : Nat → Rule → Action Bool}
    (hrules : ∀ mark rule, Action.Balanced g (rules mark rule)) (script : Script) (mark : Nat) :
    Action.Balanced g (script.build rules mark) := by
  -- Induction on the script: every constructor that opens something closes it.
  induction script generalizing mark with
  | done answer => exact .pure answer
  | fail fault =>
    intro b a b' h
    cases h
  | look n next ih => exact (Action.balanced_ahead n).bind fun k => ih k mark
  | text next ih => exact Action.balanced_currentText.bind fun t => ih t mark
  | stopped next ih => exact Action.balanced_stopped.bind fun b => ih b mark
  | exhausted next ih => exact Action.balanced_exhausted.bind fun b => ih b mark
  | bump next ih => exact Action.balanced_bump.bind fun _ => ih mark
  | flush next ih => exact Action.balanced_flush.bind fun _ => ih mark
  | complain x next ih => exact (Action.balanced_complain _ _ _).bind fun _ => ih mark
  | remark problem next ih => exact (Action.balanced_remark problem).bind fun _ => ih mark
  -- The node that is started is the one that is finished.
  | node k body next ihbody ihnext =>
    have hnode := (Action.Balanced.node k ihbody).bind fun _ => ihnext mark
    simpa only [Script.build, bind_assoc] using hnode
  | group body next ihbody ihnext =>
    exact Action.balanced_checkpoint.bind fun inner => (ihbody inner).bind fun _ => ihnext mark
  | wrap k body next ihbody ihnext =>
    have hwrap := (Action.Balanced.wrap mark k (ihbody mark)).bind fun _ => ihnext mark
    simpa only [Script.build, bind_assoc] using hwrap
  | deeper body next ihbody ihnext =>
    exact .deeper (ihbody mark) (ihnext true mark) (ihnext false mark)
  -- The delimiter that is pushed is popped by its closer.
  | enclosed d construct ifEmpty body next ihbody ihnext =>
    refine Action.balanced_currentSpan.bind fun opener => ?_
    have henclosed := (Action.Balanced.enclosed d construct
      (Action.balanced_bump.bind fun _ => ihbody mark)).bind fun answer =>
        (Action.balanced_closeEmpty ifEmpty answer opener).bind fun _ => ihnext mark
    simpa only [bind_assoc, pure_bind] using henclosed
  | call rule next ih => exact (hrules mark rule).bind fun a => ih a mark

/-- A rule is balanced on a builder. -/
theorem Rule.build_balanced (budget mark : Nat) (rule : Rule) :
    Action.Balanced g (Rule.build budget mark rule) := by
  induction budget generalizing mark rule with
  | zero =>
    intro b a b' h
    cases h
  | succ budget ih => exact Script.build_balanced ih rule.script mark

/-- A routine is balanced, since the rule that it carries out is. -/
theorem Routine.balanced (r : Routine) (budget : Nat) : Action.Balanced g (r.run budget) := by
  intro b u b' h
  cases budget with
  | zero => cases h
  | succ budget =>
    have hbuild := Script.build_balanced (g := g) (Rule.build_balanced budget) r.fragment.unit 0
    rw [← r.run_eq budget 0] at hbuild
    refine hbuild b true b' ?_
    rw [Action.bind_apply, h]
    rfl

/-- Whatever is open when a routine is called, and however it comes to its end, it returns with the
    same nodes, levels and delimiters open, without having unread a token or taken back a report, a
    halt or the first limit that was met. -/
theorem Routine.run_balanced (r : Routine) (g : Setting) (budget : Nat) {b b' : Build}
    (h : r.run budget g b = .ok ((), b')) : b.Balanced b' :=
  r.balanced budget b () b' h

/-- In a block, what stands between two parentheses is nested too deeply and not read.  The nodes
    of the parentheses and of the operator are finished all the same, and the block is still open
    behind its brace. -/
theorem Routine.run_balanced_refused :
    let g : Setting := ⟨4, true, some 3⟩
    let b : Build :=
      { State.initial (Token.lex "a-(b") none with
        depth := 1
        delimiters := [(.curly, .point 0)]
        frame := #[.leaf .lCurly "\x7b"]
        opened := [⟨.block, 0⟩] }
    ∃ b', Routine.expr.run 12 g b = .ok ((), b') ∧ b'.exhausted = some .depth ∧ b'.index = 3 ∧
      b.Balanced b' := by
  intro g b
  have hrun : Routine.expr.run 12 g b = .ok ((),
      { rest := [⟨.identifier, "b", 3, ⟨1, 4⟩⟩]
        index := 3
        pending := []
        frame := #[.leaf .lCurly "\x7b", .node .binaryExpr
          [.node .nameRef [.leaf .identifier "a"], .leaf .minus "-",
            .node .parenExpr [.leaf .lParen "("]]]
        diagnostics := #[
          { problem := .expectedToken, span := ⟨3, 4, by decide⟩, region := ⟨0, 4, by decide⟩,
            message := "expected `)` to close the parenthesized expression",
            expected := some "`)`", found := some "`b`", related := [] }]
        depth := 1
        reported := some 3
        delimiters := [(.curly, .point 0)]
        patience := fullPatience
        steps := none
        halted := false
        exhausted := some .depth
        consumedTo := some 3
        opened := [⟨.block, 0⟩] }) := by cbv
  exact ⟨_, hrun, rfl, rfl, run_balanced .expr g 12 hrun⟩

end ScriptTree
