import ScriptTree.Outline
import ScriptTree.Proofs.Asides
import ScriptTree.Proofs.Bookkeeping

/-!
# What recovery sets aside

An error node holds tokens that the grammar has no use for.  The complaint about the first of them
may be dropped, since the last report was about the same token; then that report is found instead.
So a state in which the next token was reported on has an error about that token on record
(`State.Flagged`), except between a remark and the token that it is about, which is consumed at
once.

Where a node starts is the number of bytes in front of it.  A run moves tokens but does not change
them, so the start of a node under construction is what is left when the tokens placed, pending and
ahead are taken from the source (`State.Accounted`).

## Key results

- `Script.run_takes`: what an error node begins with
- `Rule.run_accounted`: the nodes that a run adds
- `parse_errorNodes`: each error node of a parse is accounted for by a diagnostic
-/

namespace ScriptTree

/-! ## Widths and places -/

namespace Tree

/-- Number of bytes of the texts of leaves. -/
def labelWidth (ls : List (Kind × String)) : Nat :=
  (ls.map fun l => Text.byteLength l.2.toList).sum

/-- The widths of labels add up. -/
@[simp] theorem labelWidth_append (ls ls' : List (Kind × String)) :
    labelWidth (ls ++ ls') = labelWidth ls + labelWidth ls' := by simp [labelWidth]

mutual

/-- A tree is as wide as its leaves. -/
private theorem width_eq (t : Tree) : t.width = labelWidth t.leaves := by
  cases t with
  | leaf k text => simp [width, labelWidth]
  | node k ts => rw [width, leaves_node, widthOf_eq ts]

/-- Trees are as wide as their leaves. -/
private theorem widthOf_eq (ts : List Tree) : widthOf ts = labelWidth (leavesOf ts) := by
  cases ts with
  | nil => rfl
  | cons t ts => rw [widthOf, leavesOf_cons, labelWidth_append, width_eq t, widthOf_eq ts]

end

/-- The nodes of the trees behind start where those in front end. -/
private theorem preorderOf_append (start : Nat) (ts us : List Tree) :
    preorderOf start (ts ++ us) = preorderOf start ts ++ preorderOf (start + widthOf ts) us := by
  induction ts generalizing start with
  | nil => simp [preorderOf, widthOf]
  | cons t ts ih =>
    rw [List.cons_append, preorderOf, preorderOf, ih, widthOf, List.append_assoc, Nat.add_assoc]

/-- Leaves are no nodes. -/
private theorem preorderOf_leaves {ls : List Tree} (h : ∀ l ∈ ls, l.isNode = false) (start : Nat) :
    preorderOf start ls = [] := by
  induction ls generalizing start with
  | nil => rfl
  | cons l ls ih =>
    obtain ⟨hl, hls⟩ := List.forall_mem_cons.mp h
    cases l with
    | leaf k text => rw [preorderOf, preorder, ih hls, List.append_nil]
    | node k cs => cases hl

end Tree

/-- Leaves are no child nodes. -/
private theorem Element.nodes_row_leaves {ls : List Tree} (h : ∀ l ∈ ls, l.isNode = false)
    (start : Nat) : (Element.row start ls).filter (·.tree.isNode) = [] := by
  induction ls generalizing start with
  | nil => rfl
  | cons l ls ih =>
    obtain ⟨hl, hls⟩ := List.forall_mem_cons.mp h
    rw [Element.row, List.filter_cons_of_neg (by simp [hl]), ih hls]

/-- The tokens fill the source. -/
structure Setting.Filled (g : Setting) (tokens : List Token) : Prop where
  total : Tree.labelWidth (tokens.map Token.label) = g.sourceEnd
  starts : ∀ t ts, (t :: ts) <:+ tokens →
    t.start + Tree.labelWidth ((t :: ts).map Token.label) = g.sourceEnd

/-- The tokens of some pieces are as wide as the text of the pieces. -/
private theorem Piece.labelWidth_place (start : Nat) (here : LineCol) (ps : List Piece) :
    Tree.labelWidth ((place start here ps).map Token.label) = Text.byteLength (spell ps) := by
  induction ps generalizing start here with
  | nil => rfl
  | cons p ps ih =>
    have hps := ih (Token.stop ⟨p.kind, String.ofList p.chars, start, here⟩)
      (here.advance (String.ofList p.chars))
    rw [spell_cons, Text.byteLength_append, ← hps]
    simp [place, Tree.labelWidth, Token.label]

/-- The pieces of a text start where those before them end. -/
private theorem Piece.start_place {ps : List Piece} {start : Nat} {here : LineCol} {t : Token}
    {ts : List Token} (h : (t :: ts) <:+ place start here ps) :
    t.start + Tree.labelWidth ((t :: ts).map Token.label) =
      start + Text.byteLength (spell ps) := by
  -- Induction on the pieces: the suffix is all of them, or one behind the first.
  induction ps generalizing start here with
  | nil => cases List.suffix_nil.mp h
  | cons p ps ih =>
    have hall := labelWidth_place start here (p :: ps)
    rw [place] at h hall
    obtain heq | h := List.suffix_cons_iff.mp h
    · obtain ⟨rfl, rfl⟩ := List.cons.inj heq
      rw [hall]
    · rw [ih h, spell_cons, Text.byteLength_append]
      simp only [Token.stop, Token.width, String.toList_ofList]
      omega

/-- The tokens of a source fill it from the first byte to the last. -/
private theorem Setting.filled_lex {g : Setting} {source : String}
    (hend : g.sourceEnd = Text.byteLength source.toList) : g.Filled (Token.lex source) where
  total := by rw [hend, Token.lex, Piece.labelWidth_place, Piece.spell_ofText]
  starts t ts h := by rw [hend, Piece.start_place h, Piece.spell_ofText, Nat.zero_add]

/-! ## Blame -/

/-- The report is an error of the grammar about the token. -/
def Diagnostic.Blames (d : Diagnostic) (t : Token) : Prop :=
  d.problem.isLexical = false ∧ d.isError = true ∧ d.span = t.span

/-- What the grammar complains about is an error. -/
theorem Problem.severity_of_isComplaint {problem : Problem} (h : problem.isComplaint = true) :
    problem.severity = .error := by
  cases problem <;> first | rfl | cases h

/-- A complaint blames what it is about. -/
private theorem Diagnostic.blames_of_isComplaint {d : Diagnostic} (h : d.problem.isComplaint = true)
    {t : Token} (hspan : d.span = t.span) : d.Blames t := by
  refine ⟨Problem.isLexical_eq_false_of_isPointed (Problem.isPointed_of_isComplaint h), ?_, hspan⟩
  rw [Diagnostic.isError, Diagnostic.severity, Problem.severity_of_isComplaint h]
  rfl

/-- An error node holds tokens only; it begins with a significant one, and that is blamed.  A
    literal holds one significant token. -/
structure Element.Accounted (tokens : List Token) (ds : List Diagnostic) (e : Element) : Prop where
  error : e.kind = .error → e.nodes = [] ∧ ∃ t ∈ Token.significant tokens,
    e.children.head? = some ⟨.ofToken t, t.start⟩ ∧ ∃ d ∈ ds, d.Blames t
  literal : e.kind = .literal → ∃ t ∈ Token.significant tokens, e.tree.children = [.ofToken t]

/-- A node stays accounted for when more is reported. -/
theorem Element.Accounted.mono {tokens : List Token} {ds ds' : List Diagnostic} {e : Element}
    (h : e.Accounted tokens ds) (hds : ds ⊆ ds') : e.Accounted tokens ds' where
  error hk := by
    obtain ⟨hnodes, t, ht, hhead, d, hd, hblames⟩ := h.error hk
    exact ⟨hnodes, t, ht, hhead, d, hds hd, hblames⟩
  literal := h.literal

namespace State

variable {g : Setting} {tokens : List Token} {base : Nat} {s s' s'' : State}

/-! ## Leaves -/

/-- What was added to the frame are leaves. -/
def Sweeps (s s' : State) : Prop :=
  ∃ ls : List Tree, s'.frame.toList = s.frame.toList ++ ls ∧ ∀ l ∈ ls, l.isNode = false

/-- A step that leaves the frame alone adds leaves only. -/
theorem sweeps_of_frame (h : s'.frame = s.frame) : s.Sweeps s' :=
  ⟨[], by rw [h, List.append_nil], nofun⟩

/-- Steps that add leaves only may follow one another. -/
theorem Sweeps.trans (h : s.Sweeps s') (h' : s'.Sweeps s'') : s.Sweeps s'' := by
  obtain ⟨ls, heq, hls⟩ := h
  obtain ⟨ls', heq', hls'⟩ := h'
  exact ⟨ls ++ ls', by rw [heq', heq, List.append_assoc], List.forall_mem_append.mpr ⟨hls, hls'⟩⟩

/-- The trees of tokens are leaves. -/
private theorem isNode_ofToken (ts : List Token) : ∀ l ∈ ts.map Tree.ofToken, l.isNode = false := by
  intro l hl
  obtain ⟨t, -, rfl⟩ := List.mem_map.mp hl
  rfl

/-- Placing the skipped tokens adds leaves only. -/
theorem sweeps_drain (s : State) : s.Sweeps s.drain :=
  ⟨s.pending.map Tree.ofToken, by simp [drain], isNode_ofToken _⟩

/-- Single steps add leaves only. -/
theorem sweeps_stepwise : Stepwise g Sweeps where
  refl _ := sweeps_of_frame rfl
  trans := .trans
  skip _ := sweeps_of_frame skip_frame
  consume {s t ts} _ _ :=
    ⟨(s.pending ++ [t]).map Tree.ofToken, by rw [consume_frame]; simp, isNode_ofToken _⟩
  reportAt _ _ _ := sweeps_of_frame (reportAt_frame _ _)
  withPatience _ _ := sweeps_of_frame rfl

/-! ## Nodes -/

/-- The nodes placed so far are accounted for, if the frame starts at `base`. -/
structure Accounted (g : Setting) (tokens : List Token) (base : Nat) (s : State) : Prop where
  rest : s.rest <:+ tokens
  running : s.halted = false
  total : base + Tree.labelWidth s.yield = g.sourceEnd
  nodes : ∀ e ∈ Tree.preorderOf base s.frame.toList, e.Accounted tokens s.reports

/-- Leaves need not be accounted for. -/
theorem Accounted.step (h : s.Accounted g tokens base) (hrecovery : g.recovery = true)
    (hlater : s.Later g s') (hextends : s.Extends s') (hyield : s'.yield = s.yield)
    (hsweeps : s.Sweeps s') : s'.Accounted g tokens base where
  rest := hlater.rest.trans h.rest
  running := (hlater.running hrecovery).trans h.running
  total := by rw [hyield, h.total]
  nodes e he := by
    obtain ⟨ls, hframe, hls⟩ := hsweeps
    rw [hframe, Tree.preorderOf_append, Tree.preorderOf_leaves hls, List.append_nil] at he
    exact (h.nodes e he).mono hextends.1.subset

/-- An operation adds leaves only. -/
private theorem accounted_stepwise (hrecovery : g.recovery = true) :
    Stepwise g fun s s' => s.Accounted g tokens base → s'.Accounted g tokens base where
  refl _ := id
  trans h h' := h' ∘ h
  skip s h :=
    h.step hrecovery (later_skip g s) (extends_skip g s) yield_skip (sweeps_stepwise.skip s)
  consume hrest ht h := h.step hrecovery (later_consume hrest ht) (extends_consume hrest ht)
    (yield_consume hrest) (sweeps_stepwise (g := g).consume hrest ht)
  reportAt s o d h := h.step hrecovery (later_reportAt g s o d) (extends_reportAt g s o d)
    (yield_reportAt o d) (sweeps_stepwise.reportAt s o d)
  withPatience _ _ h := ⟨h.rest, h.running, h.total, h.nodes⟩

/-- Skipping keeps the nodes accounted for. -/
theorem Accounted.skip (h : s.Accounted g tokens base) (hrecovery : g.recovery = true) :
    (s.skip g).Accounted g tokens base := (accounted_stepwise hrecovery).skip s h

/-- Placing the skipped tokens keeps the nodes accounted for. -/
theorem Accounted.drain (h : s.Accounted g tokens base) (hrecovery : g.recovery = true) :
    s.drain.Accounted g tokens base :=
  h.step hrecovery (later_drain g s) ⟨List.prefix_rfl, id, id, fun _ ht _ => .inl ht⟩ yield_drain
    (sweeps_drain s)

/-- A frame of its own starts where the one around it ends. -/
theorem Accounted.emptied (h : s.Accounted g tokens base) :
    ({ s.drain with frame := #[] } : State).Accounted g tokens
      (base + Tree.widthOf s.drain.frame.toList) where
  rest := h.rest
  running := h.running
  total := by
    have htotal := h.total
    rw [← yield_drain, yield_eq_append, Tree.labelWidth_append] at htotal
    rw [Tree.widthOf_eq, Nat.add_assoc]
    exact htotal
  nodes e he := by cases he

/-- Trees that are put behind a frame start where it ends. -/
theorem Accounted.withFrame {s₁ : State} (h : s.Accounted g tokens base)
    (hextends : s.Extends s₁)
    (hs₁ : s₁.Accounted g tokens (base + Tree.widthOf s.frame.toList)) {ts : List Tree}
    (hleaves : Tree.leavesOf ts = Tree.leavesOf s₁.frame.toList)
    (hnodes : ∀ e ∈ Tree.preorderOf (base + Tree.widthOf s.frame.toList) ts,
      e.Accounted tokens s₁.reports) {f : Array Tree} (hf : f.toList = s.frame.toList ++ ts) :
    ({ s₁ with frame := f } : State).Accounted g tokens base where
  rest := hs₁.rest
  running := hs₁.running
  total := by
    have hplaced : Tree.leavesOf f.toList =
        Tree.leavesOf s.frame.toList ++ Tree.leavesOf s₁.frame.toList := by
      rw [hf, Tree.leavesOf_append, hleaves]
    rw [yield_withFrame hplaced, Tree.labelWidth_append, ← Tree.widthOf_eq, ← Nat.add_assoc]
    exact hs₁.total
  nodes e he := by
    have he : e ∈ Tree.preorderOf base f.toList := he
    rw [hf, Tree.preorderOf_append] at he
    -- A node of the old frame, or one that was made since.
    obtain he | he := List.mem_append.mp he
    · exact (h.nodes e he).mono hextends.1.subset
    · exact hnodes e he

/-! ## What was reported about the next token -/

/-- If the next token was reported on, an error about it is on record. -/
def Flagged (s : State) : Prop :=
  ∀ t ∈ s.rest, s.reported = some t.start → ∃ d ∈ s.reports, d.Blames t

/-- An error about the next token is on record, if there is one. -/
def Blamed (g : Setting) (s : State) : Prop :=
  ∀ t, (s.skip g).rest.head? = some t → ∃ d ∈ s.reports, d.Blames t

/-- What was flagged before a step is so after it, if the last report is the same. -/
theorem Flagged.step (h : s.Flagged) (hrest : s'.rest <:+ s.rest)
    (hreported : s'.reported = s.reported) (hextends : s.Extends s') : s'.Flagged := by
  intro t ht hflag
  obtain ⟨d, hd, hblames⟩ := h t (hrest.subset ht) (hreported ▸ hflag)
  exact ⟨d, hextends.1.subset hd, hblames⟩

/-- An operation that keeps the record keeps the next token flagged. -/
theorem Keeps.flagged (hkeeps : s.Keeps s') (h : s.Flagged) : s'.Flagged := by
  rw [Flagged, hkeeps.rest, hkeeps.reported, hkeeps.reports]
  exact h

/-- Skipping keeps the next token flagged. -/
theorem Flagged.skip (h : s.Flagged) : (s.skip g).Flagged :=
  h.step (later_skip g s).rest skip_reported (extends_skip g s)

/-- Behind a token that was consumed, the next one is flagged. -/
theorem Flagged.bump (h : s.Flagged) (hbump : s.bump g = .ok s') : s'.Flagged := by
  refine h.step (later_lasting.bump hbump).rest ?_ (extends_lasting.bump hbump)
  obtain ⟨t, ts, -, rfl⟩ := bump_eq_ok_iff.mp hbump
  rw [consume_reported, skip_reported]

/-- A report at a place in front of the tokens ahead says nothing about them. -/
private theorem Flagged.reportAt_past (h : s.Flagged) (hrunning : s.halted = false) {o : Nat}
    (ho : ∀ t ∈ s.rest, o < t.start) (d : Diagnostic) : (s.reportAt g o d).Flagged := by
  obtain ⟨-, heq⟩ | ⟨-, heq⟩ := reportAt_eq (g := g) hrunning o d
  · rw [heq]
    exact h
  · rw [heq]
    intro t ht hflag
    exact absurd (Option.some.inj hflag) (Nat.ne_of_lt (ho t ht))

/-- An error about the current token is put on record, or one was already. -/
theorem Flagged.reportAt_front (h : s.Flagged) (hsorted : tokens.Pairwise (·.start < ·.start))
    (hs : s.Accounted g tokens base) {d : Diagnostic}
    (hblames : ∀ t, s.rest.head? = some t → d.Blames t) :
    (s.reportAt g (s.frontSpan g).start d).Flagged ∧ ∀ t, s.rest.head? = some t →
      ∃ d' ∈ (s.reportAt g (s.frontSpan g).start d).reports, d'.Blames t := by
  have hfront {t : Token} (ht : s.rest.head? = some t) : (s.frontSpan g).start = t.start := by
    obtain ⟨ts, hrest⟩ := List.head?_eq_some_iff.mp ht
    rw [frontSpan, hrest]
    rfl
  -- Either the place was reported before, or the report is new.
  obtain ⟨hreported, heq⟩ | ⟨-, heq⟩ := reportAt_eq (g := g) hs.running (s.frontSpan g).start d
  · rw [heq]
    refine ⟨h, fun t ht => h t (List.mem_of_head? ht) ?_⟩
    rw [hreported, hfront ht]
  · rw [heq]
    -- A new report flags its own place, where the current token stands.
    refine ⟨fun t ht hflag => ⟨d, mem_reports_emit.mpr (.inr rfl), ?_⟩,
      fun t ht => ⟨d, mem_reports_emit.mpr (.inr rfl), hblames t ht⟩⟩
    have ht : t ∈ s.rest := ht
    have hflag : (s.frontSpan g).start = t.start := Option.some.inj hflag
    cases hrest : s.rest with
    | nil =>
      rw [hrest] at ht
      cases ht
    | cons u us =>
      have hu : s.rest.head? = some u := by rw [hrest]; rfl
      -- No other token starts where the current one does.
      have hlt := hsorted.sublist hs.rest.sublist
      rw [hrest] at ht hlt
      obtain rfl | ht := List.mem_cons.mp ht
      · exact hblames t hu
      · have := (List.pairwise_cons.mp hlt).1 t ht
        rw [← hfront hu, hflag] at this
        exact absurd this (Nat.lt_irrefl _)

/-- What is reported does not matter to the nodes. -/
private theorem Keeps.accounted (hkeeps : s.Keeps s') (hyield : s'.yield = s.yield)
    (hframe : s'.frame = s.frame) (h : s.Accounted g tokens base) :
    s'.Accounted g tokens base where
  rest := hkeeps.rest ▸ h.rest
  running := hkeeps.halted ▸ h.running
  total := hyield ▸ h.total
  nodes := by
    rw [hframe, hkeeps.reports]
    exact h.nodes

/-- Nothing is left to be skipped. -/
private theorem skip_rest_skip :
    (s.skip g).rest.dropWhile (·.kind.isSkipped) = (s.skip g).rest := by
  rw [← skip_rest (g := g), skip_skip]

/-- After a complaint the next token is flagged and blamed. -/
private theorem Accounted.flagged_complain (hs : s.Accounted g tokens base)
    (hrecovery : g.recovery = true)
    (hsorted : tokens.Pairwise (·.start < ·.start)) (h : s.Flagged) {x : Complaint}
    (hx : x.problem.isComplaint = true) (hcomplain : s.complain g x = .ok s') :
    s'.Flagged ∧ s'.Blamed g := by
  -- The complaint is at the current token and blames it.
  obtain ⟨p, d, rfl, hproblem, hspan, -⟩ := complain_report hcomplain
  have hkeeps := keeps_withPatience (s.skip g) p
  obtain ⟨hflagged, hblamed⟩ := (hkeeps.flagged h.skip).reportAt_front hsorted
    (hkeeps.accounted rfl rfl (hs.skip hrecovery)) (d := d) fun t ht => by
      obtain ⟨ts, hrest⟩ := List.head?_eq_some_iff.mp ht
      have hrest : (s.skip g).rest = t :: ts := hrest
      exact Diagnostic.blames_of_isComplaint (hproblem ▸ hx) (by rw [hspan, frontSpan, hrest])
  refine ⟨hflagged, fun t ht => hblamed t ?_⟩
  rw [skip_rest, reportAt_rest] at ht
  exact (congrArg List.head? skip_rest_skip).symm.trans ht

/-- After a remark the token behind the current one is flagged only if it is blamed. -/
def FlaggedBehind (g : Setting) (s : State) : Prop :=
  ∀ t ∈ (s.skip g).rest.tail, s.reported = some t.start → ∃ d ∈ s.reports, d.Blames t

/-- When the current token is consumed, the one behind it is flagged. -/
theorem FlaggedBehind.bump (h : s.FlaggedBehind g) (hbump : s.bump g = .ok s') : s'.Flagged := by
  have hextends := extends_lasting.bump hbump
  obtain ⟨t, ts, hrest, rfl⟩ := bump_eq_ok_iff.mp hbump
  intro u hu hflag
  rw [consume_reported, skip_reported] at hflag
  obtain ⟨d, hd, hblames⟩ := h u (by rw [hrest]; exact hu) hflag
  exact ⟨d, hextends.1.subset hd, hblames⟩

/-- After a remark the token behind the current one is flagged. -/
private theorem Accounted.flagged_remark (hs : s.Accounted g tokens base)
    (hrecovery : g.recovery = true)
    (hsorted : tokens.Pairwise (·.start < ·.start)) (h : s.Flagged) (problem : Problem) :
    (s.remark g problem).FlaggedBehind g := by
  have hskip := hs.skip hrecovery
  intro t ht hflag
  have ht : t ∈ (s.skip g).rest.tail := by
    rwa [skip_rest, remark, reportAt_rest, skip_rest_skip] at ht
  -- A report dropped leaves the flags as they were; a new one flags the current token.
  obtain ⟨-, heq⟩ | ⟨-, heq⟩ := reportAt_eq (g := g) hskip.running ((s.skip g).frontSpan g).start
    (.ofProblem problem ((s.skip g).frontSpan g))
  · rw [remark, heq] at hflag ⊢
    exact h.skip t (List.mem_of_mem_tail ht) hflag
  -- The remark is about the current token, which starts in front of those behind.
  · rw [remark, heq] at hflag
    have hflag : ((s.skip g).frontSpan g).start = t.start := Option.some.inj hflag
    have hlt := hsorted.sublist hskip.rest.sublist
    cases hrest : (s.skip g).rest with
    | nil =>
      rw [hrest] at ht
      cases ht
    | cons u us =>
      rw [hrest] at ht hlt
      rw [frontSpan, hrest] at hflag
      exact absurd hflag (Nat.ne_of_lt ((List.pairwise_cons.mp hlt).1 t ht))

/-! ## Delimiters -/

/-- An opener is consumed, and it starts in front of what is ahead then. -/
theorem Accounted.openDelimiter (hs : s.Accounted g tokens base) (hrecovery : g.recovery = true)
    (hsorted : tokens.Pairwise (·.start < ·.start)) (h : s.Flagged) {d : Delimiter}
    (hopen : s.openDelimiter g d = .ok s') : s'.Accounted g tokens base ∧ s'.Flagged ∧
      s'.delimiters = (d, (s.skip g).frontSpan g) :: s.delimiters ∧
      ∀ t ∈ s'.rest, ((s.skip g).frontSpan g).start < t.start := by
  have hskip := hs.skip hrecovery
  have hpushed : ({ s.skip g with
      delimiters := (d, (s.skip g).frontSpan g) :: (s.skip g).delimiters } : State).Accounted g
        tokens base := ⟨hskip.rest, hskip.running, hskip.total, hskip.nodes⟩
  have hflagged : ({ s.skip g with
      delimiters := (d, (s.skip g).frontSpan g) :: (s.skip g).delimiters } : State).Flagged :=
    h.skip
  refine ⟨(accounted_stepwise hrecovery).bump hopen hpushed, hflagged.bump hopen, ?_⟩
  -- No token behind the opener starts where it does.
  obtain ⟨t, ts, hrest, rfl⟩ := bump_eq_ok_iff.mp hopen
  rw [skip_withDelimiters, skip_skip] at hrest ⊢
  have hrest : (s.skip g).rest = t :: ts := hrest
  have hlt := hsorted.sublist hskip.rest.sublist
  rw [hrest] at hlt
  rw [frontSpan, hrest]
  exact ⟨by simp, (List.pairwise_cons.mp hlt).1⟩

/-- Closing a delimiter, or reporting that it is not closed, keeps the nodes accounted for. -/
theorem Accounted.closeDelimiter (hs : s.Accounted g tokens base) (hrecovery : g.recovery = true)
    (hsorted : tokens.Pairwise (·.start < ·.start)) (h : s.Flagged) {d : Delimiter}
    {construct : String} {opener : Span} {outer : List (Delimiter × Span)}
    (hopen : s.delimiters = (d, opener) :: outer)
    (hclose : s.closeDelimiter g d construct = .ok s') :
    s'.Accounted g tokens base ∧ s'.Flagged := by
  have htail : ({ s with delimiters := s.delimiters.tail } : State).Accounted g tokens base :=
    ⟨hs.rest, hs.running, hs.total, hs.nodes⟩
  refine ⟨(accounted_stepwise hrecovery).closeDelimiter hclose htail, ?_⟩
  obtain ⟨p, hcases⟩ := closeDelimiter_report hopen hclose
  have hskip := hs.skip hrecovery
  have houter : ({ s.skip g with delimiters := outer, patience := p } : State).Accounted g tokens
      base := ⟨hskip.rest, hskip.running, hskip.total, hskip.nodes⟩
  have hflagged : ({ s.skip g with delimiters := outer, patience := p } : State).Flagged := h.skip
  -- The closer was consumed, or a report was made at the token in its place.
  obtain ⟨-, hbump⟩ | ⟨-, r, rfl, hreport⟩ := hcases
  · exact hflagged.bump hbump
  refine (hflagged.reportAt_front hsorted houter fun t ht => ?_).1
  obtain ⟨ts, hrest⟩ := List.head?_eq_some_iff.mp ht
  have hrest : (s.skip g).rest = t :: ts := hrest
  -- At the end of the source there is no token to flag.
  obtain ⟨hnil, -⟩ | ⟨-, hproblem, hspan, -⟩ := hreport
  · rw [hrest] at hnil
    cases hnil
  · exact Diagnostic.blames_of_isComplaint (by rw [hproblem]; rfl)
      (by rw [hspan, frontSpan, hrest])

/-- The report on an empty block is about an opener that was consumed, so it keeps the nodes
    accounted for. -/
theorem Accounted.closeEmpty (hs : s.Accounted g tokens base) (hrecovery : g.recovery = true)
    (h : s.Flagged) {ifEmpty : Option Problem} {answer : Bool} {opener : Span}
    (hopener : ∀ t ∈ s.rest, opener.start < t.start)
    (hclose : s.closeEmpty g ifEmpty answer opener = .ok s') :
    s'.Accounted g tokens base ∧ s'.Flagged := by
  refine ⟨(accounted_stepwise hrecovery).closeEmpty hclose hs, ?_⟩
  obtain ⟨-, rfl⟩ | ⟨problem, -, -, hremark⟩ := closeEmpty_eq_ok_iff.mp hclose
  · exact h
  · obtain ⟨r, rfl, -⟩ := remarkSince_report hremark
    exact h.reportAt_past hs.running hopener r

/-! ## What is known of the next token -/

/-- What is known of the next token is right. -/
structure Confirms (g : Setting) (s : State) (v : Sight) : Prop where
  kind : ∀ k, v.kind = some k → s.Settled ∧ ∀ t, s.rest.head? = some t → t.kind = k
  going : v.going = true → (s.skip g).rest ≠ []
  blamed : v.blamed = true → s.Blamed g

/-- Where nothing is known, there is nothing to confirm. -/
private theorem confirms_blank (s : State) : s.Confirms g .blank := ⟨nofun, nofun, nofun⟩

variable {v : Sight}

/-- Nothing was consumed. -/
theorem Confirms.congr (h : s.Confirms g v) (hrest : s'.rest = s.rest)
    (hreports : s'.reports = s.reports) : s'.Confirms g v where
  kind := by
    rw [Settled, hrest]
    exact h.kind
  going := by
    rw [skip_rest, hrest, ← skip_rest (g := g)]
    exact h.going
  blamed hv := by
    have hblamed := h.blamed hv
    rw [Blamed, skip_rest] at hblamed ⊢
    rwa [hrest, hreports]

/-- Nothing but skipped tokens was passed over. -/
theorem Confirms.skipped (h : s.Confirms g v) (hrest : s'.rest = (s.skip g).rest)
    (hextends : s.Extends s') : s'.Confirms g v where
  kind k hk := by
    obtain ⟨hsettled, hhead⟩ := h.kind k hk
    rw [hsettled.skip_eq] at hrest
    rw [Settled, hrest]
    exact ⟨hsettled, hhead⟩
  going hv := by
    rw [skip_rest, hrest, skip_rest_skip]
    exact h.going hv
  blamed hv t ht := by
    rw [skip_rest, hrest, skip_rest_skip] at ht
    obtain ⟨d, hd, hblames⟩ := h.blamed hv t ht
    exact ⟨d, hextends.1.subset hd, hblames⟩

/-- What a lookahead tells is so. -/
theorem Confirms.look (h : s.Confirms g v) {n : Nat} {k : Kind} (hlook : s.look g n = .ok (k, s')) :
    s'.Confirms g (v.see n k) := by
  have hsettled := settled_of_look hlook
  obtain ⟨-, hk, heq⟩ := look_eq_ok_iff.mp hlook
  have hrest : s'.rest = (s.skip g).rest := by rw [heq]
  have hs' := h.skipped hrest (extends_lasting.look hlook)
  unfold Sight.see
  -- Only a look at the first token tells its kind.
  split
  · next hn =>
    refine ⟨fun j hj => ⟨hsettled, fun t ht => ?_⟩, hs'.going, hs'.blamed⟩
    cases hj
    obtain ⟨ts, hcons⟩ := List.head?_eq_some_iff.mp ht
    rw [hk, hn, ← significant_dropWhile, ← skip_rest (g := g), ← hrest, hcons, Token.significant,
      List.filter_cons_of_pos (by simp [hsettled t ts hcons])]
    rfl
  · exact hs'

/-- A parse that goes on has a current token. -/
theorem Confirms.ask (h : s.Confirms g v) : (s.skip g).Confirms g (v.ask (s.skip g).isStopped) := by
  have hs' := h.skipped rfl (extends_skip g s)
  unfold Sight.ask
  split
  · exact hs'
  · next hgoing =>
    refine ⟨hs'.kind, fun _ hnil => hgoing ?_, hs'.blamed⟩
    rw [skip_skip] at hnil
    rw [isStopped, hnil]
    rfl

/-- A complaint puts the blame on the current token. -/
theorem Confirms.blame (h : s.Confirms g v) (hblamed : s.Blamed g) : s.Confirms g v.blame :=
  ⟨h.kind, h.going, fun _ => hblamed⟩

end State

/-! ## What an error node begins with -/

variable {g : Setting} {tokens : List Token} {rules : Rule → State → Reply}

/-- A script that sweeps adds leaves, if the rules that it calls do. -/
theorem Script.run_sweeps
    (hrules : ∀ rule, rule.sweeps = true → ∀ s a s', rules rule s = .ok (a, s') → s.Sweeps s')
    {script : Script} {s s' : State} {a : Bool} (hrun : script.run g rules s = .ok (a, s'))
    (hscript : script.Sweeps) : s.Sweeps s' := by
  -- Induction on the script; what opens a node or a delimiter does not sweep.
  induction script generalizing s s' a with
  | done answer =>
    cases hrun
    exact State.sweeps_of_frame rfl
  | fail fault => cases hrun
  | look n next ih =>
    obtain ⟨k, s₁, hlook, hrun⟩ := run_look_eq_ok_iff.mp hrun
    exact (State.sweeps_stepwise.look hlook).trans (ih k hrun (hscript k))
  | stopped next ih =>
    exact (State.sweeps_of_frame State.skip_frame).trans (ih _ hrun (hscript _))
  | bump next ih =>
    obtain ⟨s₁, hbump, hrun⟩ := run_bump_eq_ok_iff.mp hrun
    exact (State.sweeps_stepwise.bump hbump).trans (ih hrun hscript)
  | call rule next ih =>
    obtain ⟨b, s₁, hcall, hrun⟩ := run_call_eq_ok_iff.mp hrun
    exact (hrules rule hscript.1 _ _ _ hcall).trans (ih _ hrun (hscript.2 _))
  | _ => exact hscript.elim

/-- The rules that set tokens aside add leaves only. -/
theorem Rule.run_sweeps {budget : Nat} {rule : Rule} {s s' : State} {a : Bool}
    (hrun : rule.run g budget s = .ok (a, s')) (hrule : rule.sweeps = true) : s.Sweeps s' :=
  Rule.run_induct (P := fun rule s _ s' => rule.sweeps = true → s.Sweeps s')
    (fun _ hrules _ _ _ _ hrun hrule => Script.run_sweeps
      (fun rule hsweeps _ _ _ hrun => hrules rule _ _ _ hrun hsweeps) hrun (script_sweeps hrule))
    hrun hrule

/-- The frame was empty, and holds the token and other leaves now. -/
def State.Starts (t : Token) (s : State) : Prop :=
  ∃ ls : List Tree, s.frame.toList = .ofToken t :: ls ∧ ∀ l ∈ ls, l.isNode = false

/-- What is consumed first comes first. -/
theorem Script.run_bump_starts
    (hrules : ∀ rule, rule.sweeps = true → ∀ s a s', rules rule s = .ok (a, s') → s.Sweeps s')
    {next : Script} {s s' : State} {a : Bool} (hrun : (bump next).run g rules s = .ok (a, s'))
    (hnext : next.Sweeps) (hsettled : s.Settled) (hpending : s.pending = [])
    (hframe : s.frame = #[]) : ∃ t ts, s.rest = t :: ts ∧ s'.Starts t := by
  obtain ⟨s₁, hbump, hrun⟩ := run_bump_eq_ok_iff.mp hrun
  obtain ⟨t, ts, hrest, rfl⟩ := State.bump_eq_ok_iff.mp hbump
  rw [hsettled.skip_eq] at hrest hrun
  obtain ⟨ls, heq, hls⟩ := run_sweeps hrules hrun hnext
  refine ⟨t, ts, hrest, ls, ?_, hls⟩
  rw [heq, State.consume_frame, hpending, hframe]
  rfl

/-- A rule that skips to one of a set, step by step. -/
private theorem Rule.script_skipTo (stops : TokenSet) : (skipTo stops).script =
    .look 0 fun k => if stops.contains k = true then .done true
      else .stopped fun b => if b = true then .done true
        else .bump (.call (.skipTo stops) fun _ => .done true) := by
  simp only [script, Grammar.skipTo, Fragment.unit, Fragment.bind_apply, Fragment.ite_apply,
    Fragment.pure_apply, Fragment.isAtAny, Fragment.current, Fragment.ahead, Fragment.stopped,
    Fragment.bump, Fragment.call]

/-- A rule that skips to one of a set begins with the current token, unless that is in the set. -/
theorem Rule.run_skipTo {budget : Nat} {stops : TokenSet} {s s' : State} {a : Bool}
    (hrun : (Rule.skipTo stops).run g budget s = .ok (a, s')) (hexhausted : s'.exhausted = none)
    (hrunning : s.halted = false) (hsettled : s.Settled) (hpending : s.pending = [])
    (hframe : s.frame = #[]) (hgoing : s.rest ≠ [])
    (hstops : ∀ t, s.rest.head? = some t → stops.contains t.kind = false) :
    ∃ t ts, s.rest = t :: ts ∧ s'.Starts t := by
  have hnone : s.exhausted = none := (Rule.run_later hrun).exhausted hexhausted
  obtain ⟨t, ts, hrest⟩ := List.exists_cons_of_ne_nil hgoing
  cases budget with
  | zero => cases hrun
  | succ budget =>
    rw [Rule.run, script_skipTo] at hrun
    -- The look shows the kind of the next token, which is no stop.
    obtain ⟨k, s₁, hlook, hrun⟩ := Script.run_look_eq_ok_iff.mp hrun
    obtain ⟨-, hk, rfl⟩ := State.look_eq_ok_iff.mp hlook
    have hkind : k = t.kind := by
      rw [hk, hrest, Token.significant, List.filter_cons_of_pos (by simp [hsettled t ts hrest])]
      rfl
    rw [hkind, hstops t (by rw [hrest]; rfl), if_neg Bool.false_ne_true] at hrun
    -- Nothing is skipped, so the next step is at the same token.
    have hsettled₁ : ({ s with patience := s.patience - 1 } : State).Settled := hsettled
    rw [hsettled.skip_eq, Script.run, hsettled₁.skip_eq] at hrun
    have hstopped : ({ s with patience := s.patience - 1 } : State).isStopped = false := by
      simp [State.isStopped, hrest, hnone, hrunning]
    rw [hstopped, if_neg Bool.false_ne_true] at hrun
    have hsweeps (rule : Rule) (hrule : rule.sweeps = true) (s : State) (a : Bool) (s' : State)
        (hrun : rule.run g budget s = .ok (a, s')) : s.Sweeps s' := run_sweeps hrun hrule
    have hnext : (Script.call (.skipTo stops) fun _ => .done true).Sweeps := ⟨rfl, fun _ => trivial⟩
    have hstarts := Script.run_bump_starts hsweeps hrun hnext hsettled₁ hpending hframe
    exact hstarts

/-- What a script relies on when it calls rules: what is on record stays there, rules that sweep add
    leaves only, and a rule that skips begins with the current token. -/
structure Rule.Tame (g : Setting) (rules : Rule → State → Reply) : Prop where
  record : ∀ rule s a s', rules rule s = .ok (a, s') → s.Extends s'
  later : ∀ rule s a s', rules rule s = .ok (a, s') → s.Later g s'
  sweeps : ∀ rule, rule.sweeps = true → ∀ s a s', rules rule s = .ok (a, s') → s.Sweeps s'
  skipTo : ∀ stops s a s', rules (.skipTo stops) s = .ok (a, s') → s'.exhausted = none →
    s.halted = false → s.Settled → s.pending = [] → s.frame = #[] → s.rest ≠ [] →
    (∀ t, s.rest.head? = some t → stops.contains t.kind = false) →
      ∃ t ts, s.rest = t :: ts ∧ s'.Starts t

/-- The rules report on and on, and consume from the front. -/
theorem Rule.tame_run (g : Setting) (budget : Nat) : Tame g fun rule => rule.run g budget where
  record _ _ _ _ := Rule.run_extends
  later _ _ _ _ := Rule.run_later
  sweeps _ hrule _ _ _ hrun := Rule.run_sweeps hrun hrule
  skipTo _ _ _ _ := Rule.run_skipTo

/-- An error node begins with the current token, and that is blamed. -/
theorem Script.run_takes (htame : Rule.Tame g rules)
    (hrecovery : g.recovery = true) (hsorted : tokens.Pairwise (·.start < ·.start)) {base : Nat}
    {script : Script} {s s' : State} {a : Bool} {v : Sight}
    (hrun : script.run g rules s = .ok (a, s')) (hexhausted : s'.exhausted = none)
    (hs : s.Accounted g tokens base) (hflagged : s.Flagged) (hv : s.Confirms g v)
    (hsettled : s.Settled) (hpending : s.pending = []) (hframe : s.frame = #[])
    (haccounts : script.Accounts v) (htakes : script.Takes v) :
    ∃ t ts, s.rest = t :: ts ∧ s'.Starts t ∧ ∃ d ∈ s'.reports, d.Blames t := by
  -- Induction on the script, of which only complaints may come before the token is taken.
  induction script generalizing s v with
  | complain x next ih =>
    obtain ⟨s₁, hcomplain, hrun⟩ := run_complain_eq_ok_iff.mp hrun
    obtain ⟨hflagged₁, hblamed⟩ :=
      hs.flagged_complain hrecovery hsorted hflagged haccounts.1 hcomplain
    have hextends₁ := State.extends_lasting.complain hcomplain
    have hs₁ := (State.accounted_stepwise hrecovery).complain hcomplain hs
    obtain ⟨p, d, heq, -⟩ := State.complain_eq_ok hcomplain
    rw [hsettled.skip_eq] at heq
    have hrest : s₁.rest = s.rest := by rw [heq, State.reportAt_rest]
    have hv₁ := (hv.skipped (hrest.trans (by rw [hsettled.skip_eq])) hextends₁).blame hblamed
    obtain ⟨t, ts, hcons, h⟩ := ih hrun hs₁ hflagged₁ hv₁
      (by rw [State.Settled, hrest]; exact hsettled)
      (by rw [heq, State.reportAt_pending]; exact hpending)
      (by rw [heq, State.reportAt_frame]; exact hframe) haccounts.2 htakes
    exact ⟨t, ts, hrest ▸ hcons, h⟩
  -- The token is taken here, and the complaint about it was made before.
  | bump next =>
    obtain ⟨t, ts, hrest, hstarts⟩ :=
      run_bump_starts htame.sweeps hrun htakes.2 hsettled hpending hframe
    obtain ⟨d, hd, hblames⟩ := hv.blamed htakes.1 t (by rw [hsettled.skip_eq, hrest]; rfl)
    exact ⟨t, ts, hrest, hstarts, d, (run_extends htame.record hrun).1.subset hd, hblames⟩
  -- Of the rules only the one that discards up to a stop takes a token.
  | call rule next =>
    cases rule with
    | skipTo stops =>
      obtain ⟨hblamed, hgoing, ⟨k, hk, hstops⟩, hnext⟩ := htakes
      have hextends' := run_extends htame.record hrun
      obtain ⟨b, s₁, hcall, hrun⟩ := run_call_eq_ok_iff.mp hrun
      have hgoing := hv.going hgoing
      rw [hsettled.skip_eq] at hgoing
      have hexhausted₁ := (run_later htame.later hrun).exhausted hexhausted
      obtain ⟨t, ts, hrest, ls, heq, hls⟩ := htame.skipTo stops s b s₁ hcall hexhausted₁ hs.running
        hsettled hpending hframe hgoing fun t ht => by rwa [(hv.kind k hk).2 t ht]
      obtain ⟨ls', heq', hls'⟩ := run_sweeps htame.sweeps hrun (hnext b)
      obtain ⟨d, hd, hblames⟩ := hv.blamed hblamed t (by rw [hsettled.skip_eq, hrest]; rfl)
      exact ⟨t, ts, hrest, ⟨ls ++ ls', by rw [heq', heq, List.cons_append],
        List.forall_mem_append.mpr ⟨hls, hls'⟩⟩, d, hextends'.1.subset hd, hblames⟩
    | _ => exact htakes.elim
  | _ => exact htakes.elim

/-! ## Runs -/

namespace State

variable {base : Nat} {s s₁ : State} {ts : List Tree}

/-- A new node goes behind what was placed before. -/
theorem Accounted.push (h : s.Accounted g tokens base) (hrecovery : g.recovery = true)
    (hextends : s.Extends s₁)
    (hs₁ : s₁.Accounted g tokens (base + Tree.widthOf s.drain.frame.toList)) {k : Kind}
    (hnode : Element.Accounted tokens s₁.reports
      ⟨.node k s₁.frame.toList, base + Tree.widthOf s.drain.frame.toList⟩) :
    ({ s₁ with frame := s.drain.frame.push (.node k s₁.frame.toList) } : State).Accounted g tokens
      base := by
  have hleaves : Tree.leavesOf [.node k s₁.frame.toList] = Tree.leavesOf s₁.frame.toList := by simp
  refine (h.drain hrecovery).withFrame hextends hs₁ hleaves (fun e he => ?_) (by simp)
  rw [Tree.preorderOf, Tree.preorder, Tree.preorderOf, List.append_nil] at he
  obtain rfl | he := List.mem_cons.mp he
  · exact hnode
  · exact hs₁.nodes e he

/-- Nodes that are accounted for in two frames are so in both together. -/
theorem Accounted.append (h : s.Accounted g tokens base) (hrecovery : g.recovery = true)
    (hextends : s.Extends s₁)
    (hs₁ : s₁.Accounted g tokens (base + Tree.widthOf s.drain.frame.toList)) :
    ({ s₁ with frame := s.drain.frame ++ s₁.frame } : State).Accounted g tokens base :=
  (h.drain hrecovery).withFrame hextends hs₁ rfl hs₁.nodes (by simp)

/-- A new node takes all that was placed before. -/
theorem Accounted.wrap (h : s.Accounted g tokens base) {k : Kind} (herror : k ≠ .error)
    (hliteral : k ≠ .literal) :
    ({ s with frame := #[.node k s.frame.toList] } : State).Accounted g tokens base where
  rest := h.rest
  running := h.running
  total := by
    have hleaves : Tree.leavesOf #[Tree.node k s.frame.toList].toList =
        [] ++ Tree.leavesOf s.frame.toList := by simp
    rw [yield_withFrame hleaves, List.nil_append]
    exact h.total
  nodes e he := by
    have he : e ∈ Tree.preorderOf base [.node k s.frame.toList] := he
    rw [Tree.preorderOf, Tree.preorder, Tree.preorderOf, List.append_nil] at he
    -- The new node, or one that was in the frame before.
    obtain rfl | he := List.mem_cons.mp he
    · exact ⟨fun hk => absurd hk herror, fun hk => absurd hk hliteral⟩
    · exact h.nodes e he

/-- To ask for a level leaves the frame alone. -/
theorem enter_frame {b : Bool} {s' : State} (h : s.enter g = (b, s')) : s'.frame = s.frame := by
  obtain ⟨_, _, _, rfl⟩ := enter_eq h
  rfl

/-- To ask for a level leaves the tokens ahead alone. -/
theorem enter_rest {b : Bool} {s' : State} (h : s.enter g = (b, s')) : s'.rest = s.rest := by
  obtain ⟨_, _, _, rfl⟩ := enter_eq h
  rfl

/-- The next token is one that the grammar sees. -/
theorem Accounted.mem_significant (h : s.Accounted g tokens base) (hsettled : s.Settled) {t : Token}
    {us : List Token} (hrest : s.rest = t :: us) : t ∈ Token.significant tokens := by
  refine List.mem_filter.mpr ⟨h.rest.subset (by rw [hrest]; exact List.mem_cons_self), ?_⟩
  rw [hsettled t us hrest]
  rfl

/-- A node starts where the tokens ahead did. -/
theorem Accounted.start (h : s.Accounted g tokens base) (hfilled : g.Filled tokens) {t : Token}
    {us : List Token} (hrest : s.rest = t :: us) :
    base + Tree.widthOf s.drain.frame.toList = t.start := by
  have htotal := h.emptied.total
  have hstart := hfilled.starts t us (hrest ▸ h.rest)
  have hyield : ({ s.drain with frame := #[] } : State).yield = (t :: us).map Token.label := by
    have hdrained : s.drain.pending = [] ∧ s.drain.rest = t :: us := ⟨rfl, hrest⟩
    simp [yield, hdrained]
  rw [hyield] at htotal
  omega

end State

/-- An error node that begins with a token is accounted for if that is blamed. -/
private theorem Element.accounted_of_starts {ds : List Diagnostic} {t : Token}
    (ht : t ∈ Token.significant tokens) {s : State} (hstarts : s.Starts t)
    (hblamed : ∃ d ∈ ds, d.Blames t) {start : Nat} (hstart : start = t.start) :
    Element.Accounted tokens ds ⟨.node .error s.frame.toList, start⟩ where
  error _ := by
    obtain ⟨ls, heq, hls⟩ := hstarts
    -- The tokens of the error have no nodes among them, and the first one is the token blamed.
    refine ⟨?_, t, ht, ?_, hblamed⟩
    · have hleaves : ∀ l ∈ s.frame.toList, l.isNode = false := by
        rw [heq]
        exact List.forall_mem_cons.mpr ⟨rfl, hls⟩
      exact nodes_row_leaves hleaves start
    · rw [children, Tree.children, heq, row, hstart]
      rfl
  literal hk := by cases hk

/-- A node that a script adds is accounted for. -/
private theorem Script.node_accounted (hrecovery : g.recovery = true)
    (hsorted : tokens.Pairwise (·.start < ·.start)) (hfilled : g.Filled tokens)
    (htame : Rule.Tame g rules) {base : Nat} {k : Kind} {body : Script} {s s' : State} {b : Bool}
    {v : Sight} (hbody : body.run g rules { s.drain with frame := #[] } = .ok (b, s'))
    (hexhausted : s'.exhausted = none) (hs : s.Accounted g tokens base) (hflagged : s.Flagged)
    (hv : s.Confirms g v) (hinside : body.Accounts v)
    (herror : k = .error → v.kind.isSome = true ∧ body.Takes v)
    (hliteral : k = .literal → v.kind.isSome = true ∧ body = .bump (.done true)) :
    Element.Accounted tokens s'.reports
      ⟨.node k s'.frame.toList, base + Tree.widthOf s.drain.frame.toList⟩ := by
  have hkeeps := State.keeps_emptied s
  have hv' := hv.congr hkeeps.rest hkeeps.reports
  refine ⟨fun hk => ?_, fun hk => ?_⟩
  -- An error takes tokens only, the first of which was complained about.
  · obtain rfl : k = .error := hk
    obtain ⟨hseen, htakes⟩ := herror rfl
    obtain ⟨j, hj⟩ := Option.isSome_iff_exists.mp hseen
    obtain ⟨t, ts, hrest, hstarts, hblamed⟩ := run_takes htame hrecovery hsorted hbody hexhausted
      hs.emptied (hkeeps.flagged hflagged) hv' (hv.kind j hj).1 rfl rfl hinside htakes
    exact (Element.accounted_of_starts (hs.mem_significant (hv.kind j hj).1 hrest) hstarts
      hblamed (hs.start hfilled hrest)).error rfl
  -- A literal takes one token.
  · obtain rfl : k = .literal := hk
    obtain ⟨hseen, rfl⟩ := hliteral rfl
    obtain ⟨j, hj⟩ := Option.isSome_iff_exists.mp hseen
    obtain ⟨s₂, hbump, hdone⟩ := run_bump_eq_ok_iff.mp hbody
    cases hdone
    obtain ⟨t, ts, hrest, rfl⟩ := State.bump_eq_ok_iff.mp hbump
    rw [(hv'.kind j hj).1.skip_eq] at hrest ⊢
    exact ⟨t, hs.mem_significant (hv.kind j hj).1 hrest, by simp [Tree.children, State.drain]⟩

/-- What a script relies on: a parse that recovers, tokens in order that fill the source, and the
    rules that it calls. -/
structure Rule.Accounting (g : Setting) (tokens : List Token) (rules : Rule → State → Reply) :
    Prop where
  recovery : g.recovery = true
  sorted : tokens.Pairwise (·.start < ·.start)
  filled : g.Filled tokens
  tame : Rule.Tame g rules
  accounted : ∀ rule base s a s', rules rule s = .ok (a, s') → s'.exhausted = none →
    s.Accounted g tokens base → s.Flagged → s'.Accounted g tokens base ∧ s'.Flagged

/-- From the state the script accounts for the nodes that it adds, and what that shows of the
    outcome is what is claimed.  A remark may stand in front of the script if it consumes the token.
    -/
def Script.KeepsAccounts (g : Setting) (tokens : List Token) (script : Script) (s : State)
    (goal : Bool → State → Prop) : Prop :=
  ∃ base v, script.Accounts v ∧ s.Accounted g tokens base ∧
    (s.Flagged ∨ script.isBump = true ∧ s.FlaggedBehind g) ∧ s.Confirms g v ∧
      ∀ a s', s'.Accounted g tokens base → s'.Flagged → goal a s'

namespace Script.KeepsAccounts

variable {script next body : Script} {base : Nat} {v : Sight} {s s' s₁ : State}
  {goal goal' : Bool → State → Prop}

/-- The accounts may be kept for a weaker goal. -/
theorem mono (h : script.KeepsAccounts g tokens s goal) (hgoal : ∀ a s', goal a s' → goal' a s') :
    script.KeepsAccounts g tokens s goal' := by
  obtain ⟨base, v, haccounts, hs, hflagged, hv, hshown⟩ := h
  exact ⟨base, v, haccounts, hs, hflagged, hv, fun a s' hs' hflagged' =>
    hgoal a s' (hshown a s' hs' hflagged')⟩

/-- What is accounted for before a script is so after it, if the walk through the script allows
    it. -/
private theorem of_flagged (haccounts : script.Accounts v) (hs : s.Accounted g tokens base)
    (hflagged : s.Flagged) (hv : s.Confirms g v)
    (hgoal : ∀ a s', s'.Accounted g tokens base → s'.Flagged → goal a s') :
    script.KeepsAccounts g tokens s goal :=
  ⟨base, v, haccounts, hs, .inl hflagged, hv, hgoal⟩

/-- Only a script that consumes the next token may begin after a remark about it. -/
theorem flagged (h : script.KeepsAccounts g tokens s goal) (hbump : script.isBump = false) :
    ∃ base v, script.Accounts v ∧ s.Accounted g tokens base ∧ s.Flagged ∧ s.Confirms g v ∧
      ∀ a s', s'.Accounted g tokens base → s'.Flagged → goal a s' := by
  obtain ⟨base, v, haccounts, hs, hflagged, hv, hgoal⟩ := h
  exact ⟨base, v, haccounts, hs, hflagged.resolve_right (by simp [hbump]), hv, hgoal⟩

/-- A complaint keeps the accounts for what follows. -/
theorem complain (hrecovery : g.recovery = true) (hsorted : tokens.Pairwise (·.start < ·.start))
    {x : Complaint} (hcomplain : s.complain g x = .ok s')
    (h : (Script.complain x next).KeepsAccounts g tokens s goal) :
    next.KeepsAccounts g tokens s' goal := by
  obtain ⟨base, v, ⟨hx, hnext⟩, hs, hflagged, hv, hgoal⟩ := h.flagged rfl
  obtain ⟨hflagged', hblamed⟩ := hs.flagged_complain hrecovery hsorted hflagged hx hcomplain
  have hextends := State.extends_lasting.complain hcomplain
  have hrest : s'.rest = (s.skip g).rest := by
    obtain ⟨p, d, rfl, -⟩ := State.complain_eq_ok hcomplain
    exact State.reportAt_rest _ _
  exact of_flagged hnext ((State.accounted_stepwise hrecovery).complain hcomplain hs) hflagged'
    ((hv.skipped hrest hextends).blame hblamed) hgoal

/-- A step that consumes nothing keeps the accounts for what follows. -/
theorem step (hrecovery : g.recovery = true) (hsorted : tokens.Pairwise (·.start < ·.start))
    (hstep : Step g script s next s') (h : script.KeepsAccounts g tokens s goal) :
    next.KeepsAccounts g tokens s' goal := by
  -- Each step but consuming keeps the flags; what was seen of the token ahead may be forgotten.
  cases hstep with
  | complain hcomplain => exact h.complain hrecovery hsorted hcomplain
  | look hlook =>
    obtain ⟨base, v, haccounts, hs, hflagged, hv, hgoal⟩ := h.flagged rfl
    have hreported : s'.reported = s.reported := by
      obtain ⟨-, -, rfl⟩ := State.look_eq_ok_iff.mp hlook
      exact State.skip_reported
    have hflagged' := hflagged.step (State.later_lasting.look hlook).rest hreported
      (State.extends_lasting.look hlook)
    exact of_flagged (haccounts _) ((State.accounted_stepwise hrecovery).look hlook hs) hflagged'
      (hv.look hlook) hgoal
  | text =>
    obtain ⟨base, v, haccounts, hs, hflagged, hv, hgoal⟩ := h.flagged rfl
    exact of_flagged (haccounts _) (hs.skip hrecovery) hflagged.skip
      (hv.skipped rfl (State.extends_skip g s)) hgoal
  | stopped =>
    obtain ⟨base, v, haccounts, hs, hflagged, hv, hgoal⟩ := h.flagged rfl
    exact of_flagged (haccounts _) (hs.skip hrecovery) hflagged.skip hv.ask hgoal
  | exhausted =>
    obtain ⟨base, v, haccounts, hs, hflagged, hv, hgoal⟩ := h.flagged rfl
    exact of_flagged (haccounts _) hs hflagged hv hgoal
  | flush =>
    obtain ⟨base, v, haccounts, hs, hflagged, hv, hgoal⟩ := h.flagged rfl
    exact of_flagged haccounts ((hs.skip hrecovery).drain hrecovery)
      ((State.keeps_drain _).flagged hflagged.skip)
      ((hv.skipped rfl (State.extends_skip g s)).congr rfl rfl) hgoal
  | remark problem =>
    obtain ⟨base, v, ⟨hbump, hnext⟩, hs, hflagged, hv, hgoal⟩ := h.flagged rfl
    exact ⟨base, v, hnext, (State.accounted_stepwise hrecovery).remark problem hs,
      .inr ⟨hbump, hs.flagged_remark hrecovery hsorted hflagged problem⟩,
      hv.skipped (State.reportAt_rest _ _) (State.extends_lasting.remark problem), hgoal⟩

/-- A token that is consumed keeps the accounts for what follows. -/
theorem bump (hrecovery : g.recovery = true) (hbump : s.bump g = .ok s')
    (h : (Script.bump next).KeepsAccounts g tokens s goal) :
    next.KeepsAccounts g tokens s' goal := by
  obtain ⟨base, v, haccounts, hs, hflagged, -, hgoal⟩ := h
  exact of_flagged haccounts ((State.accounted_stepwise hrecovery).bump hbump hs)
    (hflagged.elim (·.bump hbump) (·.2.bump hbump)) s'.confirms_blank hgoal

/-- A new node is accounted for by its body. -/
theorem node (hrules : Rule.Accounting g tokens rules) {k : Kind}
    (h : (Script.node k body next).KeepsAccounts g tokens s goal) :
    body.KeepsAccounts g tokens { s.drain with frame := #[] } fun b s₁ =>
      body.run g rules { s.drain with frame := #[] } = .ok (b, s₁) → s₁.exhausted = none →
        next.KeepsAccounts g tokens
          { s₁ with frame := s.drain.frame.push (.node k s₁.frame.toList) } goal := by
  obtain ⟨base, v, ⟨herror, hliteral, hinside, hnext⟩, hs, hflagged, hv, hgoal⟩ := h.flagged rfl
  have hkeeps := State.keeps_emptied s
  refine of_flagged hinside hs.emptied (hkeeps.flagged hflagged)
    (hv.congr hkeeps.rest hkeeps.reports) fun b s₁ hs₁ hflagged₁ hbody hexhausted => ?_
  -- An error or a literal accounts for itself; other nodes have nothing to account for.
  have hnode := node_accounted hrules.recovery hrules.sorted hrules.filled hrules.tame hbody
    hexhausted hs hflagged hv hinside herror hliteral
  have hextends := run_extends hrules.tame.record hbody
  exact of_flagged hnext (hs.push hrules.recovery hextends hs₁ hnode)
    ((State.keeps_withFrame s₁ _).flagged hflagged₁) (State.confirms_blank _) hgoal

/-- The body of a group keeps the accounts from an empty frame on, and its frame then joins the one
    outside. -/
theorem group (hrecovery : g.recovery = true)
    (h : (Script.group body next).KeepsAccounts g tokens s goal) :
    body.KeepsAccounts g tokens { s.drain with frame := #[] } fun _ s₁ =>
      ({ s.drain with frame := #[] } : State).Extends s₁ →
        next.KeepsAccounts g tokens { s₁ with frame := s.drain.frame ++ s₁.frame } goal := by
  obtain ⟨base, v, ⟨hinside, hnext⟩, hs, hflagged, hv, hgoal⟩ := h.flagged rfl
  have hkeeps := State.keeps_emptied s
  refine of_flagged hinside hs.emptied (hkeeps.flagged hflagged)
    (hv.congr hkeeps.rest hkeeps.reports) fun b s₁ hs₁ hflagged₁ hextends => ?_
  exact of_flagged hnext (hs.append hrecovery hextends hs₁)
    ((State.keeps_withFrame s₁ _).flagged hflagged₁) (State.confirms_blank _) hgoal

/-- The body of what wraps keeps the accounts in the same frame, which then is one node. -/
theorem wrap {k : Kind} (h : (Script.wrap k body next).KeepsAccounts g tokens s goal) :
    body.KeepsAccounts g tokens s fun _ s₁ =>
      next.KeepsAccounts g tokens { s₁ with frame := #[.node k s₁.frame.toList] } goal := by
  obtain ⟨base, v, ⟨herror, hliteral, hinside, hnext⟩, hs, hflagged, hv, hgoal⟩ := h.flagged rfl
  exact of_flagged hinside hs hflagged hv fun _ s₁ hs₁ hflagged₁ =>
    of_flagged hnext (hs₁.wrap herror hliteral)
      ((State.keeps_withFrame s₁ _).flagged hflagged₁) (State.confirms_blank _) hgoal

/-- On a level that was granted the accounts are kept, and after it was left. -/
theorem granted {next : Bool → Script} (henter : s.enter g = (true, s₁))
    (h : (Script.deeper body next).KeepsAccounts g tokens s goal) :
    body.KeepsAccounts g tokens s₁ fun _ s₂ =>
      (next true).KeepsAccounts g tokens s₂.leave goal := by
  obtain ⟨base, v, ⟨hinside, hnext⟩, hs, hflagged, hv, hgoal⟩ := h.flagged rfl
  have hkeeps := State.keeps_enter henter
  refine of_flagged hinside
    (hkeeps.accounted (State.yield_enter henter) (State.enter_frame henter) hs)
    (hkeeps.flagged hflagged) (hv.congr hkeeps.rest hkeeps.reports) fun _ s₂ hs₂ hflagged₂ => ?_
  have hkeeps' := State.keeps_leave s₂
  exact of_flagged hnext (hkeeps'.accounted rfl rfl hs₂) (hkeeps'.flagged hflagged₂)
    (State.confirms_blank _) hgoal

/-- Between the delimiters the accounts are kept, and after the closer was read or found missing. -/
theorem enclosed (hrecovery : g.recovery = true) (hsorted : tokens.Pairwise (·.start < ·.start))
    {d : Delimiter} {construct : String} {ifEmpty : Option Problem}
    (hopen : s.openDelimiter g d = .ok s₁)
    (h : (Script.enclosed d construct ifEmpty body next).KeepsAccounts g tokens s goal) :
    body.KeepsAccounts g tokens s₁ fun b s₂ => s₁.Later g s₂ → ∀ s₃ s₄,
      s₂.closeDelimiter g d construct = .ok s₃ →
        s₃.closeEmpty g ifEmpty b ((s.skip g).frontSpan g) = .ok s₄ →
          next.KeepsAccounts g tokens s₄ goal := by
  obtain ⟨base, v, ⟨hinside, hnext⟩, hs, hflagged, -, hgoal⟩ := h.flagged rfl
  obtain ⟨hs₁, hflagged₁, hdelimiters, hopener⟩ :=
    hs.openDelimiter hrecovery hsorted hflagged hopen
  refine of_flagged hinside hs₁ hflagged₁ s₁.confirms_blank ?_
  intro b s₂ hs₂ hflagged₂ hlater s₃ s₄ hclose hempty
  obtain ⟨hs₃, hflagged₃⟩ := hs₂.closeDelimiter hrecovery hsorted hflagged₂
    (hlater.delimiters.trans hdelimiters) hclose
  -- The tokens behind the closer are among those behind the opener.
  have hrest₃ : s₃.rest <:+ s₁.rest :=
    (State.later_lasting.closeDelimiter hclose).rest.trans hlater.rest
  obtain ⟨hs₄, hflagged₄⟩ :=
    hs₃.closeEmpty hrecovery hflagged₃ (fun t ht => hopener t (hrest₃.subset ht)) hempty
  exact of_flagged hnext hs₄ hflagged₄ s₄.confirms_blank hgoal

/-- A rule that was called keeps the accounts for what follows, since all rules do. -/
theorem call (hrules : Rule.Accounting g tokens rules) {rule : Rule} {next : Bool → Script}
    {b : Bool} (hcall : rules rule s = .ok (b, s₁)) (hexhausted : s₁.exhausted = none)
    (h : (Script.call rule next).KeepsAccounts g tokens s goal) :
    (next b).KeepsAccounts g tokens s₁ goal := by
  obtain ⟨base, v, haccounts, hs, hflagged, -, hgoal⟩ := h.flagged rfl
  obtain ⟨hs₁, hflagged₁⟩ := hrules.accounted _ _ _ _ _ hcall hexhausted hs hflagged
  exact of_flagged (haccounts _) hs₁ hflagged₁ s₁.confirms_blank hgoal

end Script.KeepsAccounts

/-- What a script knows of the next token accounts for its nodes, unless a limit is met. -/
def Script.accountAnalysis (hrules : Rule.Accounting g tokens rules) : Script.Analysis g rules where
  Fine := KeepsAccounts g tokens
  Last s := s.exhausted = none
  Before := State.Later g
  lasting := State.later_lasting
  before := hrules.tame.later
  back hbefore := hbefore.exhausted
  outer hexhausted := hexhausted
  done h := by
    obtain ⟨base, v, -, hs, hflagged, -, hgoal⟩ := h.flagged rfl
    exact hgoal _ _ hs hflagged
  step hstep _ := .step hrules.recovery hrules.sorted hstep
  bump hbump _ := .bump hrules.recovery hbump
  node h := h.node hrules
  group h := (h.group hrules.recovery).mono fun _ _ hnext hbody _ =>
    hnext (run_extends hrules.tame.record hbody)
  wrap h := h.wrap.mono fun _ _ hnext _ _ => hnext
  refused henter hexhausted _ := absurd hexhausted (State.exhausted_of_enter henter)
  granted henter h := (h.granted henter).mono fun _ _ hnext _ _ => hnext
  enclosed hopen h := (h.enclosed hrules.recovery hrules.sorted hopen).mono
    fun _ _ hnext hbody s₃ s₄ hclose hempty _ =>
      hnext (run_later hrules.tame.later hbody) s₃ s₄ hclose hempty
  call := .call hrules

/-- A script accounts for the nodes that it adds, if the rules that it calls do. -/
theorem Script.run_accounted (hrules : Rule.Accounting g tokens rules) {base : Nat}
    {script : Script} {s s' : State} {a : Bool} {v : Sight}
    (hrun : script.run g rules s = .ok (a, s')) (hexhausted : s'.exhausted = none)
    (hs : s.Accounted g tokens base)
    (hflagged : s.Flagged ∨ script.isBump = true ∧ s.FlaggedBehind g) (hv : s.Confirms g v)
    (haccounts : script.Accounts v) : s'.Accounted g tokens base ∧ s'.Flagged := by
  have hkeeps : script.KeepsAccounts g tokens s fun _ s' =>
      s'.Accounted g tokens base ∧ s'.Flagged :=
    ⟨base, v, haccounts, hs, hflagged, hv, fun _ _ hs' hflagged' => ⟨hs', hflagged'⟩⟩
  exact run_sound (accountAnalysis hrules) hkeeps hrun hexhausted

/-- A run that no limit ends accounts for the nodes that it adds. -/
theorem Rule.run_accounted (hrecovery : g.recovery = true)
    (hsorted : tokens.Pairwise (·.start < ·.start)) (hfilled : g.Filled tokens) {budget base : Nat}
    {rule : Rule} {s s' : State} {a : Bool} (hrun : rule.run g budget s = .ok (a, s'))
    (hexhausted : s'.exhausted = none) (hs : s.Accounted g tokens base) (hflagged : s.Flagged) :
    s'.Accounted g tokens base ∧ s'.Flagged := by
  -- Induction on the budget.
  induction budget generalizing base rule s s' a with
  | zero => cases hrun
  | succ budget ih =>
    have hrules : Rule.Accounting g tokens fun rule => rule.run g budget :=
      { recovery := hrecovery
        sorted := hsorted
        filled := hfilled
        tame := Rule.tame_run g budget
        accounted := fun _ _ _ _ _ hrun hexhausted hs hflagged =>
          ih hrun hexhausted hs hflagged }
    exact Script.run_accounted hrules hrun hexhausted hs (.inl hflagged) (State.confirms_blank s)
      (Rule.accounts rule)

/-! ## Parses -/

/-- In a parse that recovers, all nodes are accounted for. -/
theorem parse_accounted {o : Options} {source : String} {p : Parsed} (hrecovery : o.recovery = true)
    (hparse : parse o source = .ok (.ok p)) :
    ∀ e ∈ p.tree.preorder 0, e.Accounted (Token.lex source) p.diagnostics := by
  obtain ⟨a, s, hrun, hfinish⟩ := parseLexed_eq_ok_iff.mp hparse
  obtain ⟨hexhausted, -, htree, hreports⟩ := State.finish_eq_ok hfinish
  have hfilled : Setting.Filled ⟨Text.byteLength source.toList, o.recovery, o.depthLimit⟩
      (Token.lex source) := Setting.filled_lex rfl
  -- At the start every token is unread, and nothing has been reported.
  have hinitial : (State.initial (Token.lex source) o.stepLimit).Accounted
      ⟨Text.byteLength source.toList, o.recovery, o.depthLimit⟩ (Token.lex source) 0 := by
    refine ⟨List.suffix_refl _, rfl, ?_, fun _ h => by cases h⟩
    rw [Nat.zero_add]
    exact hfilled.total
  have hflagged : (State.initial (Token.lex source) o.stepLimit).Flagged := by
    intro t ht hreported
    cases hreported
  obtain ⟨hs, -⟩ := Rule.run_accounted hrecovery (Token.lex_sorted source).1 hfilled hrun hexhausted
    hinitial hflagged
  intro e he
  rw [htree, Tree.preorder] at he
  rw [hreports]
  -- The program itself is neither an error nor a literal.
  obtain rfl | he := List.mem_cons.mp he
  · constructor <;> intro hk <;> cases hk
  · exact hs.nodes e he

/-- Each error node of a parse that recovers holds tokens only, and begins with a significant one.
    That token is what an error of the grammar is about. -/
theorem parse_errorNodes (o : Options) (source : String) (p : Parsed)
    (hrecovery : o.recovery = true) (hparse : parse o source = .ok (.ok p)) :
    ∀ e ∈ p.tree.preorder 0, e.kind = .error → e.nodes = [] ∧
      ∃ t ∈ Token.significant (Token.lex source), e.children.head? = some ⟨.ofToken t, t.start⟩ ∧
        ∃ d ∈ p.diagnostics, d.problem.isLexical = false ∧ d.isError = true ∧ d.span = t.span :=
  fun e he => (parse_accounted hrecovery hparse e he).error

/-- The parenthesis is no operand, and then it is no statement; only the former is reported. -/
theorem parse_errorNodes_shared : ∃ p, parse .default "1+)" = .ok (.ok p) ∧
    p.diagnostics.map (·.problem) = [.expectedExpression] ∧
    ∃ e ∈ p.tree.preorder 0, e.kind = .error ∧ e.nodes = [] ∧
      ∃ t ∈ Token.significant (Token.lex "1+)"),
        e.children.head? = some ⟨.ofToken t, t.start⟩ ∧ ∃ d ∈ p.diagnostics,
          d.problem.isLexical = false ∧ d.isError = true ∧ d.span = t.span := by
  have hparse : parse .default "1+)" = .ok (.ok ⟨.node .program
      [.node .exprStmt [.node .binaryExpr [.node .literal [.leaf .number "1"], .leaf .plus "+"]],
        .node .error [.leaf .rParen ")"]],
      [{ Diagnostic.ofProblem .expectedExpression ⟨2, 3, by decide⟩ with
          expected := some "an operand after the operator", found := some "`)`" }]⟩) := by
    decide +kernel
  have he : (⟨.node .error [.leaf .rParen ")"], 2⟩ : Element) ∈ Tree.preorder 0 (.node .program
      [.node .exprStmt [.node .binaryExpr [.node .literal [.leaf .number "1"], .leaf .plus "+"]],
        .node .error [.leaf .rParen ")"]]) := by decide
  exact ⟨_, hparse, rfl, _, he, rfl, parse_errorNodes .default _ _ rfl hparse _ he rfl⟩

end ScriptTree
