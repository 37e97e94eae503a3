import ScriptTree.Proofs.Heads

/-!
# How nodes end

White space, comments and lexical errors behind a node belong to what is around it.  They are read
when a rule looks at the next token, but not placed before a node or a group is opened or a token is
consumed.  What is placed when a node or a group is opened is followed by the token with which that
begins; so it ends no node, unless something is opened and nothing is consumed in it.

`Script.Seals` walks through a script, following the paths on which nothing is complained about, and
checks that whatever is opened there has consumed a token at its end.  The last leaf of each node is
a token that the grammar sees then.

Lexical errors are no matter of the grammar, so there may be any number of them.

## Key results

- `Rule.seals`: what the rules have consumed if they do not complain
- `parse_sealed`: which nodes end with a token that the grammar sees
-/

namespace ScriptTree

/-! ## Trees -/

namespace Tree

/-- There is a last leaf, and it is a token that the grammar sees. -/
def Full (leaves : List (Kind × String)) : Prop :=
  ∃ label, leaves.getLast? = some label ∧ label.1.isSkipped = false

mutual

/-- The nodes of a tree end with a token that the grammar sees. -/
def Sealed : Tree → Prop
  | leaf _ _ => True
  | node _ cs => Full (leavesOf cs) ∧ AllSealed cs

/-- The same for several trees. -/
def AllSealed : List Tree → Prop
  | [] => True
  | t :: ts => t.Sealed ∧ AllSealed ts

end

section

variable {ts us : List Tree} {ls ls' : List (Kind × String)}

/-- What ends with a token does so whatever is in front. -/
theorem Full.append (h : Full ls') : Full (ls ++ ls') := by
  obtain ⟨label, hlast, hlabel⟩ := h
  exact ⟨label, by rw [List.getLast?_append, hlast]; rfl, hlabel⟩

/-- Trees are sealed one by one. -/
private theorem allSealed_iff : AllSealed ts ↔ ∀ t ∈ ts, t.Sealed := by
  induction ts with
  | nil => simp [AllSealed]
  | cons t ts ih => simp [AllSealed, ih]

/-- Two lists of trees are sealed if each is. -/
@[simp] theorem allSealed_append : AllSealed (ts ++ us) ↔ AllSealed ts ∧ AllSealed us := by
  simp only [allSealed_iff]
  exact List.forall_mem_append

/-- Of leaves nothing is asked. -/
private theorem allSealed_of_leaves (h : ∀ t ∈ ts, t.isNode = false) : AllSealed ts := by
  rw [allSealed_iff]
  intro t ht
  cases t with
  | leaf k text => trivial
  | node k cs => cases h _ ht

end

mutual

/-- All nodes in a sealed tree end with a token that the grammar sees. -/
private theorem Sealed.full_of_mem {start : Nat} {e : Element} : ∀ {t : Tree}, t.Sealed →
    e ∈ t.preorder start → Full e.tree.leaves
  | leaf _ _, _, he => by cases he
  | node k cs, h, he => by
    rw [preorder] at he
    obtain rfl | he := List.mem_cons.mp he
    · rw [leaves_node]
      exact h.1
    · exact AllSealed.full_of_mem h.2 he

/-- All nodes below end with a token too. -/
private theorem AllSealed.full_of_mem {start : Nat} {e : Element} :
    ∀ {ts : List Tree}, AllSealed ts → e ∈ preorderOf start ts → Full e.tree.leaves
  | [], _, he => by cases he
  | t :: ts, h, he => by
    rw [preorderOf] at he
    obtain he | he := List.mem_append.mp he
    · exact Sealed.full_of_mem h.1 he
    · exact AllSealed.full_of_mem h.2 he

end

end Tree

/-! ## Scripts -/

/-- All but what is found while reading tokens, about whole constructs, or not an error. -/
private theorem Problem.isComplaint_iff {problem : Problem} : problem.isComplaint = true ↔
    problem ∉ [.unrecognizedCharacter, .malformedString, .unterminatedComment, .unclosedBlock,
      .unclosedParen, .unclosedBracket, .emptyBlock, .redundantSemicolon] := by
  cases problem <;> decide

/-- Whether the frame ends with a token after a rule that does not complain, if that is `full`
    before. -/
@[simp] def Rule.fills (full : Bool) : Rule → Bool
  | program => false
  | rule => full || rule.consumes

/-- As long as nothing is complained about, all that the script opens ends with a token that it has
    consumed; `post` holds of whether the frame does so in the end, if that is `full` before. -/
def Script.Seals : Script → (full : Bool) → (post : Bool → Prop) → Prop
  | .done _, full, post => post full
  | .fail _, _, _ => True
  | .look _ next, full, post => ∀ k, (next k).Seals full post
  | .text next, full, post => ∀ text, (next text).Seals full post
  | .stopped next, full, post => ∀ b, (next b).Seals full post
  | .exhausted next, full, post => (next false).Seals full post
  | .bump next, _, post => next.Seals true post
  | .flush next, _, post => next.Seals false post
  -- A complaint is an error, so nothing is demanded of what follows.
  | .complain x _, _, _ => x.problem.isComplaint = true
  | .remark _ next, full, post => next.isBump = true ∧ next.Seals full post
  | .node _ body next, _, post => body.Seals false (· = true) ∧ next.Seals true post
  | .group body next, _, post => body.Seals false (· = true) ∧ next.Seals true post
  | .wrap _ body next, full, post => body.Seals full (· = true) ∧ next.Seals true post
  | .deeper body next, full, post => body.Seals full fun full' => (next true).Seals full' post
  -- Between delimiters nothing need be consumed, since the opener and the closer are.
  | .enclosed _ _ _ body next, _, post => body.Seals true (fun _ => True) ∧ next.Seals true post
  | .call rule next, full, post => ∀ b, (next b).Seals (rule.fills full) post

/-! ## Runs -/

namespace State

variable {g : Setting} {s s₁ s' : State}

/-- The grammar has reported no error, and nothing ran out. -/
def Faultless (s : State) : Prop :=
  s.exhausted = none ∧ ∀ d ∈ s.reports, d.problem.isLexical = false → d.isError = false

/-- What was faultless in the end was so before. -/
theorem Faultless.of_extends (h : s'.Faultless) (hextends : s.Extends s') : s.Faultless :=
  ⟨hextends.2.1 h.1, fun d hd => h.2 d (hextends.1.subset hd)⟩

/-- An error of the grammar that is not dropped is seen. -/
private theorem not_faultless_reportAt {o : Nat} {d : Diagnostic} (hrunning : s.halted = false)
    (hreported : s.reported ≠ some o) (herror : d.isError = true)
    (hlexical : d.problem.isLexical = false) : ¬ (s.reportAt g o d).Faultless := by
  intro h
  have hd : d ∈ (s.reportAt g o d).reports := by
    simp [reportAt, hrunning, hreported, emit, reports]
  have hnone := h.2 d hd hlexical
  rw [herror] at hnone
  cases hnone

/-- Nothing was reported about the current token yet, so an error about it is seen. -/
private theorem Orderly.not_faultless_front (h : s.Orderly g) (hfresh : s.Fresh g)
    (hsettled : s.Settled) {d : Diagnostic} (herror : d.isError = true)
    (hlexical : d.problem.isLexical = false) :
    ¬ (s.reportAt g (s.frontSpan g).start d).Faultless := by
  refine not_faultless_reportAt h.running (fun hreported => ?_) herror hlexical
  have hlt := hfresh _ hreported
  rw [front, hsettled.skip_eq] at hlt
  exact Nat.lt_irrefl _ hlt

/-- From a fresh state a complaint is reported, so nothing is faultless after it. -/
private theorem Orderly.not_faultless_complain (hrecovery : g.recovery = true) (h : s.Orderly g)
    (hfresh : s.Fresh g) {x : Complaint} (hx : x.problem.isComplaint = true)
    (hcomplain : s.complain g x = .ok s') : ¬ s'.Faultless := by
  obtain ⟨p, d, rfl, hproblem, -⟩ := complain_report hcomplain
  have hskip := h.still_skip hrecovery
  have hpatient : (s.skip g).Still g { s.skip g with patience := p } :=
    hskip.orderly.still hskip.orderly.waits rfl rfl rfl
  have hsettled : (s.skip g).Settled := settled_skip
  have herror : d.isError = true := by
    rw [Diagnostic.isError, Diagnostic.severity, hproblem, Problem.severity_of_isComplaint hx]
    rfl
  refine hpatient.orderly.not_faultless_front (hpatient.fresh (hskip.fresh hfresh))
    (hsettled.congr rfl) herror ?_
  rw [hproblem]
  exact Problem.isLexical_eq_false_of_isPointed (Problem.isPointed_of_isComplaint hx)

/-- The nodes of the frame end as they should, and so does the frame, if it is full. -/
structure Sealed (full : Bool) (s : State) : Prop where
  nodes : Tree.AllSealed s.frame.toList
  full : full = true → Tree.Full (Tree.leavesOf s.frame.toList)

variable {full : Bool}

/-- How a frame is sealed depends on its trees only. -/
theorem Sealed.congr (h : s.Sealed full) (hframe : s'.frame = s.frame) : s'.Sealed full where
  nodes := hframe ▸ h.nodes
  full := hframe ▸ h.full

/-- If all nodes are sealed, nothing need be known of the last leaf. -/
private theorem sealed_of_nodes (h : Tree.AllSealed s.frame.toList) : s.Sealed false :=
  ⟨h, fun hfull => absurd hfull Bool.false_ne_true⟩

/-- The tokens that are placed are leaves, and seal nothing. -/
theorem Sealed.drain (h : s.Sealed full) : Tree.AllSealed s.drain.frame.toList := by
  obtain ⟨ls, hframe, hls⟩ := sweeps_drain s
  rw [hframe, Tree.allSealed_append]
  exact ⟨h.nodes, Tree.allSealed_of_leaves hls⟩

/-- What was made in a frame of its own is put behind the frame of before. -/
theorem Sealed.placed (h : s.Sealed full) {f : Array Tree} {ts : List Tree}
    (hframe : f.toList = s.drain.frame.toList ++ ts) (hts : Tree.AllSealed ts)
    (hfull : Tree.Full (Tree.leavesOf ts)) : ({ s₁ with frame := f } : State).Sealed true where
  nodes := by
    show Tree.AllSealed f.toList
    rw [hframe, Tree.allSealed_append]
    exact ⟨h.drain, hts⟩
  full _ := by
    show Tree.Full (Tree.leavesOf f.toList)
    rw [hframe, Tree.leavesOf_append]
    exact hfull.append

/-- A node of what was made is sealed if that ends with a token. -/
theorem Sealed.node (h : s.Sealed true) (k : Kind) :
    Tree.AllSealed [.node k s.frame.toList] ∧
      Tree.Full (Tree.leavesOf [.node k s.frame.toList]) := by
  refine ⟨⟨⟨h.full rfl, h.nodes⟩, trivial⟩, ?_⟩
  rw [Tree.leavesOf_cons, Tree.leavesOf_nil, List.append_nil]
  exact h.full rfl

/-- A token that was consumed is the last leaf. -/
theorem Sealed.bump (h : s.Sealed full) (hbump : s.bump g = .ok s') : s'.Sealed true := by
  obtain ⟨t, ts, hrest, rfl⟩ := bump_eq_ok_iff.mp hbump
  have ht : t.kind.isSkipped = false := Token.isSkipped_of_dropWhile (skip_rest ▸ hrest)
  have hskip : (s.skip g).Sealed full := h.congr skip_frame
  have hframe : ((s.skip g).consume t ts).frame.toList =
      (s.skip g).drain.frame.toList ++ [Tree.ofToken t] := by
    rw [consume_frame, Array.toList_push]
    rfl
  refine ⟨?_, fun _ => ?_⟩
  · rw [hframe, Tree.allSealed_append]
    exact ⟨hskip.drain, trivial, trivial⟩
  · rw [hframe, Tree.leavesOf_append]
    exact Tree.Full.append ⟨t.label, rfl, ht⟩

/-- A closer that is missing is an error that is seen. -/
private theorem Orderly.closer_of_faultless (hrecovery : g.recovery = true) (h : s.Orderly g)
    (hfresh : s.Fresh g) (hs : s.Sealed full) {d : Delimiter} {construct : String} {opener : Span}
    {outer : List (Delimiter × Span)} (hopen : s.delimiters = (d, opener) :: outer)
    (hclose : s.closeDelimiter g d construct = .ok s') (hfaultless : s'.Faultless) :
    s.Passes g s' ∧ s'.Sealed true := by
  obtain ⟨p, hcases⟩ := closeDelimiter_report hopen hclose
  have hskip := h.still_skip hrecovery
  have hstill : (s.skip g).Still g { s.skip g with delimiters := outer, patience := p } :=
    hskip.orderly.still hskip.orderly.waits rfl rfl rfl
  have hfresh' := hstill.fresh (hskip.fresh hfresh)
  -- The closer is consumed, or its absence is reported.
  obtain ⟨-, hbump⟩ | ⟨-, dg, rfl, hreport⟩ := hcases
  · obtain ⟨hpasses, -⟩ := hstill.orderly.passes_bump hrecovery
      (fun o ho => Nat.le_of_lt (hfresh' o ho)) hbump
    have hs' : ({ s.skip g with delimiters := outer, patience := p } : State).Sealed full :=
      hs.congr skip_frame
    exact ⟨hskip.trans_passes (hstill.trans_passes hpasses), hs'.bump hbump⟩
  -- Both reports are errors of the grammar.
  · have hproblem : dg.problem.severity = .error ∧ dg.problem.isLexical = false := by
      obtain ⟨-, hproblem, -⟩ | ⟨-, hproblem, -⟩ := hreport
      · rw [hproblem]
        cases d <;> exact ⟨rfl, rfl⟩
      · rw [hproblem]
        exact ⟨rfl, rfl⟩
    have herror : dg.isError = true := by
      rw [Diagnostic.isError, Diagnostic.severity, hproblem.1]
      rfl
    have hsettled : (s.skip g).Settled := settled_skip
    exact absurd hfaultless
      (hstill.orderly.not_faultless_front hfresh' (hsettled.congr rfl) herror hproblem.2)

/-- A report that something is empty is about its opener, which was consumed before. -/
theorem Passes.closeEmpty (hrecovery : g.recovery = true) (h : s.Passes g s₁)
    {ifEmpty : Option Problem} {answer : Bool} {opener : Span} (hle : s.front g ≤ opener.start)
    (hlt : opener.start < s₁.front g) (hempty : s₁.closeEmpty g ifEmpty answer opener = .ok s') :
    s.Passes g s' ∧ s'.frame = s₁.frame := by
  -- Nothing is reported, or the block was empty.
  obtain ⟨-, rfl⟩ | ⟨problem, -, -, hremark⟩ := closeEmpty_eq_ok_iff.mp hempty
  · exact ⟨h, rfl⟩
  · obtain ⟨dg, rfl, -⟩ := remarkSince_report hremark
    have hfront : (s₁.reportAt g opener.start dg).front g = s₁.front g :=
      front_congr (reportAt_rest _ _)
    -- A report changes neither the tokens nor what is waiting.
    refine ⟨⟨⟨?_, ?_, ?_, ?_⟩, fun o ho => ?_, ?_, fun o ho => ?_⟩, reportAt_frame _ _⟩
    · rw [Waits, reportAt_pending]
      exact h.orderly.waits
    · unfold reportAt
      split
      · exact h.orderly.running
      · simp [emit, h.orderly.running, hrecovery]
    · rw [reportAt_rest]
      exact h.orderly.sorted
    · rw [reportAt_rest]
      exact h.orderly.bounded
    · rw [hfront]
      -- The place reported is behind the opener, and the front is behind both.
      obtain ho | rfl := reported_of_reportAt ho
      · exact h.fresh o ho
      · exact hlt
    · rw [hfront]
      exact h.front
    · obtain ho | rfl := reported_of_reportAt ho
      · exact h.reported o ho
      · exact .inr hle

end State

variable {g : Setting} {rules : Rule → State → Reply}

/-- What a rule does in a run in which the grammar reports no error. -/
def Rule.Sealing (g : Setting) (rules : Rule → State → Reply) : Prop :=
  ∀ rule full s a s', rules rule s = .ok (a, s') → s'.Faultless → s.Orderly g → s.Fresh g →
    s.Sealed full → s.Passes g s' ∧ s'.Sealed (rule.fills full)

/-- From the state the script seals what it opens, and what that shows of the outcome is what is
    claimed.  A token that was warned about may stand in front of the script if it is consumed
    next. -/
def Script.KeepsSeals (g : Setting) (script : Script) (s : State) (goal : Bool → State → Prop) :
    Prop :=
  ∃ full post, script.Seals full post ∧ s.Orderly g ∧
    (∀ o, s.reported = some o → o ≤ s.front g) ∧ (script.isBump = true ∨ s.Fresh g) ∧
      s.Sealed full ∧
        ∀ a full' s', s.Passes g s' → post full' → s'.Sealed full' → goal a s'

namespace Script.KeepsSeals

variable {script next body : Script} {s s' s₁ : State} {full : Bool} {post : Bool → Prop}
  {goal goal' : Bool → State → Prop}

/-- The seals may be kept for a weaker goal. -/
theorem mono (h : script.KeepsSeals g s goal) (hgoal : ∀ a s', goal a s' → goal' a s') :
    script.KeepsSeals g s goal' := by
  obtain ⟨full, post, hseals, horderly, hback, hfresh, hs, hshown⟩ := h
  exact ⟨full, post, hseals, horderly, hback, hfresh, hs, fun a full' s' hpasses hpost hs' =>
    hgoal a s' (hshown a full' s' hpasses hpost hs')⟩

/-- From a fresh state, a script that seals leads to a frame that is sealed. -/
theorem of_fresh (hseals : script.Seals full post) (horderly : s.Orderly g) (hfresh : s.Fresh g)
    (hs : s.Sealed full)
    (hgoal : ∀ a full' s', s.Passes g s' → post full' → s'.Sealed full' → goal a s') :
    script.KeepsSeals g s goal :=
  ⟨full, post, hseals, horderly, fun o ho => Nat.le_of_lt (hfresh o ho), .inr hfresh, hs, hgoal⟩

/-- Only a script that consumes the next token may begin after a warning about it. -/
theorem fresh (h : script.KeepsSeals g s goal) (hbump : script.isBump = false) :
    ∃ full post, script.Seals full post ∧ s.Orderly g ∧ s.Fresh g ∧ s.Sealed full ∧
      ∀ a full' s', s.Passes g s' → post full' → s'.Sealed full' → goal a s' := by
  obtain ⟨full, post, hseals, horderly, -, hfresh, hs, hgoal⟩ := h
  exact ⟨full, post, hseals, horderly, hfresh.resolve_left (by simp [hbump]), hs, hgoal⟩

/-- What is remarked may be about the current token, since that is consumed next. -/
theorem remark (hrecovery : g.recovery = true) {problem : Problem}
    (h : (Script.remark problem next).KeepsSeals g s goal) :
    next.KeepsSeals g (s.remark g problem) goal := by
  obtain ⟨full, post, ⟨hbump, hseals⟩, horderly, hback, hfresh, hs, hgoal⟩ := h
  obtain ⟨horderly₁, hfront, hreported, -⟩ := horderly.remark hrecovery problem
  have hback₁ : ∀ o, (s.remark g problem).reported = some o →
      o ≤ (s.remark g problem).front g := by
    intro o ho
    rw [hfront]
    obtain ho | rfl := hreported o ho
    · exact hback o ho
    · exact Nat.le_refl _
  refine ⟨full, post, hseals, horderly₁, hback₁, .inl hbump,
    hs.congr ((State.reportAt_frame _ _).trans State.skip_frame), fun a full' s' hpasses => ?_⟩
  refine hgoal a full' s' ⟨hpasses.orderly, hpasses.fresh, by rw [← hfront]; exact hpasses.front,
    fun o ho => ?_⟩
  obtain ho | ho := hpasses.reported o ho
  · exact (hreported o ho).imp_right fun heq => Nat.le_of_eq heq.symm
  · exact .inr (by rwa [hfront] at ho)

/-- Nothing is complained about, and what is read does not change. -/
theorem step (hrecovery : g.recovery = true) (hstep : Step g script s next s')
    (hfaultless : s'.Faultless) (h : script.KeepsSeals g s goal) : next.KeepsSeals g s' goal := by
  -- Each step but consuming leaves the frame, and with it what is known of its last leaf.
  cases hstep with
  | remark problem => exact h.remark hrecovery
  | look hlook =>
    obtain ⟨full, post, hseals, horderly, hfresh, hs, hgoal⟩ := h.fresh rfl
    obtain ⟨hstill, -, -⟩ := horderly.still_look hrecovery hlook
    have hframe : s'.frame = s.frame := by
      obtain ⟨-, -, rfl⟩ := State.look_eq_ok_iff.mp hlook
      exact State.skip_frame
    exact of_fresh (hseals _) hstill.orderly (hstill.fresh hfresh) (hs.congr hframe)
      fun a full' s' hpasses => hgoal a full' s' (hstill.trans_passes hpasses)
  | text | stopped =>
    obtain ⟨full, post, hseals, horderly, hfresh, hs, hgoal⟩ := h.fresh rfl
    have hstill := horderly.still_skip hrecovery
    exact of_fresh (hseals _) hstill.orderly (hstill.fresh hfresh) (hs.congr State.skip_frame)
      fun a full' s' hpasses => hgoal a full' s' (hstill.trans_passes hpasses)
  | exhausted next =>
    -- A faultless parse has met no limit.
    obtain ⟨full, post, hseals, horderly, hfresh, hs, hgoal⟩ := h.fresh rfl
    rw [hfaultless.1]
    exact of_fresh hseals horderly hfresh hs hgoal
  | flush =>
    obtain ⟨full, post, hseals, horderly, hfresh, hs, hgoal⟩ := h.fresh rfl
    have hskip := horderly.still_skip hrecovery
    have hdrain : (s.skip g).Still g (s.skip g).drain :=
      hskip.orderly.still State.waits_drain rfl rfl rfl
    exact of_fresh hseals hdrain.orderly (hdrain.fresh (hskip.fresh hfresh))
      (State.sealed_of_nodes (hs.congr State.skip_frame).drain) fun a full' s' hpasses =>
        hgoal a full' s' (hskip.trans_passes (hdrain.trans_passes hpasses))
  | complain hcomplain =>
    obtain ⟨full, post, hseals, horderly, hfresh, hs, hgoal⟩ := h.fresh rfl
    -- A complaint is an error of the grammar.
    exact absurd hfaultless (horderly.not_faultless_complain hrecovery hfresh hseals hcomplain)

/-- A token that is consumed keeps the seals for what follows. -/
theorem bump (hrecovery : g.recovery = true) (hbump : s.bump g = .ok s')
    (h : (Script.bump next).KeepsSeals g s goal) : next.KeepsSeals g s' goal := by
  obtain ⟨full, post, hseals, horderly, hback, -, hs, hgoal⟩ := h
  obtain ⟨hpasses, -⟩ := horderly.passes_bump hrecovery hback hbump
  exact of_fresh hseals hpasses.orderly hpasses.fresh (hs.bump hbump) fun a full' s' hpasses' =>
    hgoal a full' s' (hpasses.trans hpasses')

/-- A new node ends with what its body ends with. -/
theorem node {k : Kind} (h : (Script.node k body next).KeepsSeals g s goal) :
    body.KeepsSeals g { s.drain with frame := #[] } fun _ s₁ =>
      next.KeepsSeals g { s₁ with frame := s.drain.frame.push (.node k s₁.frame.toList) } goal := by
  obtain ⟨full, post, ⟨hinside, hnext⟩, horderly, hfresh, hs, hgoal⟩ := h.fresh rfl
  have hemptied := horderly.still_emptied
  refine of_fresh hinside hemptied.orderly (hemptied.fresh hfresh)
    (State.sealed_of_nodes trivial) ?_
  rintro _ full' s₁ hbodied rfl hs₁
  have hpushed := (hemptied.trans_passes hbodied).withFrame
    (s.drain.frame.push (.node k s₁.frame.toList))
  exact of_fresh hnext hpushed.orderly hpushed.fresh
    (hs.placed (Array.toList_push ..) (hs₁.node k).1 (hs₁.node k).2)
    fun a full' s' hpasses => hgoal a full' s' (hpushed.trans hpasses)

/-- The body of a group keeps the seals from an empty frame on, and its frame then joins the one
    outside. -/
theorem group (h : (Script.group body next).KeepsSeals g s goal) :
    body.KeepsSeals g { s.drain with frame := #[] } fun _ s₁ =>
      next.KeepsSeals g { s₁ with frame := s.drain.frame ++ s₁.frame } goal := by
  obtain ⟨full, post, ⟨hinside, hnext⟩, horderly, hfresh, hs, hgoal⟩ := h.fresh rfl
  have hemptied := horderly.still_emptied
  refine of_fresh hinside hemptied.orderly (hemptied.fresh hfresh)
    (State.sealed_of_nodes trivial) ?_
  rintro _ full' s₁ hbodied rfl hs₁
  have hgrouped := (hemptied.trans_passes hbodied).withFrame (s.drain.frame ++ s₁.frame)
  exact of_fresh hnext hgrouped.orderly hgrouped.fresh
    (hs.placed (Array.toList_append ..) hs₁.nodes (hs₁.full rfl))
    fun a full' s' hpasses => hgoal a full' s' (hgrouped.trans hpasses)

/-- The new node takes all of the frame, so it is the whole frame then. -/
theorem wrap {k : Kind} (h : (Script.wrap k body next).KeepsSeals g s goal) :
    body.KeepsSeals g s fun _ s₁ =>
      next.KeepsSeals g { s₁ with frame := #[.node k s₁.frame.toList] } goal := by
  obtain ⟨full, post, ⟨hinside, hnext⟩, horderly, hfresh, hs, hgoal⟩ := h.fresh rfl
  refine of_fresh hinside horderly hfresh hs ?_
  rintro _ full' s₁ hbodied rfl hs₁
  have hwrapped := hbodied.withFrame #[.node k s₁.frame.toList]
  exact of_fresh hnext hwrapped.orderly hwrapped.fresh ⟨(hs₁.node k).1, fun _ => (hs₁.node k).2⟩
    fun a full' s' hpasses => hgoal a full' s' (hwrapped.trans hpasses)

/-- On a level that was granted the seals are kept, and after it was left. -/
theorem granted {next : Bool → Script} (henter : s.enter g = (true, s₁))
    (h : (Script.deeper body next).KeepsSeals g s goal) :
    body.KeepsSeals g s₁ fun _ s₂ => (next true).KeepsSeals g s₂.leave goal := by
  obtain ⟨full, post, hseals, horderly, hfresh, hs, hgoal⟩ := h.fresh rfl
  obtain ⟨hentered, -⟩ := horderly.still_enter henter
  refine of_fresh hseals hentered.orderly (hentered.fresh hfresh)
    (hs.congr (State.enter_frame henter)) fun _ full' s₂ hpasses hnext hs₂ => ?_
  have hleft : s₂.Still g s₂.leave := hpasses.orderly.still hpasses.orderly.waits rfl rfl rfl
  exact of_fresh hnext hleft.orderly (hleft.fresh hpasses.fresh) (hs₂.congr rfl)
    fun a full' s' hpasses' => hgoal a full' s'
      (hentered.trans_passes (hpasses.trans (hleft.trans_passes hpasses')))

/-- No error was reported, so the closer was there, and the frame ends with it. -/
theorem enclosed (hrecovery : g.recovery = true) {d : Delimiter} {construct : String}
    {ifEmpty : Option Problem} (hopen : s.openDelimiter g d = .ok s₁)
    (h : (Script.enclosed d construct ifEmpty body next).KeepsSeals g s goal) :
    body.KeepsSeals g s₁ fun b s₂ => s₁.Later g s₂ → ∀ s₃ s₄,
      s₂.closeDelimiter g d construct = .ok s₃ →
        s₃.closeEmpty g ifEmpty b ((s.skip g).frontSpan g) = .ok s₄ → s₄.Faultless →
          next.KeepsSeals g s₄ goal := by
  -- The opener is consumed and ends the frame with a token.
  obtain ⟨full, post, ⟨hinside, hnext⟩, horderly, hfresh, hs, hgoal⟩ := h.fresh rfl
  obtain ⟨hopened, hlt, -⟩ := horderly.passes_openDelimiter hrecovery hfresh hopen
  have hnoted : ({ s.skip g with
      delimiters := (d, (s.skip g).frontSpan g) :: (s.skip g).delimiters } : State).Sealed full :=
    hs.congr State.skip_frame
  refine of_fresh hinside hopened.orderly hopened.fresh (hnoted.bump hopen) ?_
  intro b full₂ s₂ hpasses _ hs₂ hlater s₃ s₄ hclose hempty hfaultless
  -- The body restores the delimiters, so the closer is the partner of the opener.
  have hdelimiters : s₂.delimiters = (d, (s.skip g).frontSpan g) :: s.delimiters := by
    rw [hlater.delimiters, (State.later_lasting.bump hopen).delimiters]
    simp
  obtain ⟨hclosed, hs₃⟩ := hpasses.orderly.closer_of_faultless hrecovery hpasses.fresh hs₂
    hdelimiters hclose (hfaultless.of_extends (State.extends_lasting.closeEmpty hempty))
  -- Something was consumed since the opener, so a report of an empty block is behind.
  have hlt := Nat.lt_of_lt_of_le hlt (Nat.le_trans hpasses.front hclosed.front)
  obtain ⟨hwhole, hframe⟩ := (hopened.trans (hpasses.trans hclosed)).closeEmpty hrecovery
    (Nat.le_refl _) hlt hempty
  exact of_fresh hnext hwhole.orderly hwhole.fresh (hs₃.congr hframe)
    fun a full' s' hpasses' => hgoal a full' s' (hwhole.trans hpasses')

/-- A rule that was called keeps the seals for what follows, since all rules do. -/
theorem call (hrules : Rule.Sealing g rules) {rule : Rule} {next : Bool → Script} {b : Bool}
    (hcall : rules rule s = .ok (b, s₁)) (hfaultless : s₁.Faultless)
    (h : (Script.call rule next).KeepsSeals g s goal) : (next b).KeepsSeals g s₁ goal := by
  obtain ⟨full, post, hseals, horderly, hfresh, hs, hgoal⟩ := h.fresh rfl
  obtain ⟨hpasses, hs₁⟩ := hrules _ _ _ _ _ hcall hfaultless horderly hfresh hs
  exact of_fresh (hseals b) hpasses.orderly hpasses.fresh hs₁
    fun a full' s' hpasses' => hgoal a full' s' (hpasses.trans hpasses')

end Script.KeepsSeals

/-- What a script consumes shows with what its nodes end, unless an error is reported. -/
def Script.sealAnalysis (hrecovery : g.recovery = true) (htame : Rule.Tame g rules)
    (hrules : Rule.Sealing g rules) : Script.Analysis g rules where
  Fine := KeepsSeals g
  Last := State.Faultless
  Before := State.Extends
  lasting := State.extends_lasting
  before := htame.record
  back hbefore hfaultless := hfaultless.of_extends hbefore
  outer hfaultless := hfaultless
  done h := by
    obtain ⟨full, post, hseals, horderly, hfresh, hs, hgoal⟩ := h.fresh rfl
    exact hgoal _ full _ ((horderly.still horderly.waits rfl rfl rfl).passes hfresh) hseals hs
  step := .step hrecovery
  bump hbump _ := .bump hrecovery hbump
  node h := h.node.mono fun _ _ hnext _ _ => hnext
  group h := h.group.mono fun _ _ hnext _ _ => hnext
  wrap h := h.wrap.mono fun _ _ hnext _ _ => hnext
  refused henter hfaultless _ := absurd hfaultless.1 (State.exhausted_of_enter henter)
  granted henter h := (h.granted henter).mono fun _ _ hnext _ _ => hnext
  enclosed hopen h := (h.enclosed hrecovery hopen).mono fun _ _ hnext hbody =>
    hnext (run_later htame.later hbody)
  call := .call hrules

/-- In a run in which the grammar reports no error, a script that checks seals what it opens, if the
    rules that it calls do.  A token that was warned about may stand in front of it if that is
    consumed next. -/
theorem Script.run_sealed (hrecovery : g.recovery = true) (htame : Rule.Tame g rules)
    (hrules : Rule.Sealing g rules) {script : Script} {full : Bool} {post : Bool → Prop}
    {s s' : State} {a : Bool} (hseals : script.Seals full post)
    (hrun : script.run g rules s = .ok (a, s')) (hfaultless : s'.Faultless) (h : s.Orderly g)
    (hback : ∀ o, s.reported = some o → o ≤ s.front g)
    (hfresh : script.isBump = true ∨ s.Fresh g) (hs : s.Sealed full) :
    s.Passes g s' ∧ ∃ full', post full' ∧ s'.Sealed full' := by
  have hkeeps : script.KeepsSeals g s fun _ s' =>
      s.Passes g s' ∧ ∃ full', post full' ∧ s'.Sealed full' :=
    ⟨full, post, hseals, h, hback, hfresh, hs, fun _ full' _ hpasses hpost hs' =>
      ⟨hpasses, full', hpost, hs'⟩⟩
  exact run_sound (sealAnalysis hrecovery htame hrules) hkeeps hrun hfaultless

/-! ## Steps -/

namespace Fragment

variable {α β : Type} {full : Bool} {post : Bool → Prop}

/-- A script that is done ends as it stands. -/
@[simp] theorem seals_done {answer : Bool} : (Script.done answer).Seals full post ↔ post full :=
  Iff.rfl

/-- Fragments in sequence are followed in sequence. -/
@[simp] theorem seals_bind (m : Fragment α) (f : α → Fragment β) (next : β → Script) :
    ((m >>= f) next).Seals full post ↔ (m fun a => f a next).Seals full post := Iff.rfl

/-- Handing on a value consumes nothing. -/
@[simp] theorem seals_pure (a : α) (next : α → Script) :
    ((pure a : Fragment α) next).Seals full post ↔ (next a).Seals full post := Iff.rfl

/-- The branch that is taken is followed. -/
@[simp] theorem seals_ite (c : Prop) [Decidable c] (m n : Fragment α) (next : α → Script) :
    ((if c then m else n) next).Seals full post ↔
      if c then (m next).Seals full post else (n next).Seals full post := by
  split <;> rfl

/-- Looking ahead places nothing in the frame. -/
@[simp] theorem seals_ahead (n : Nat) (next : Kind → Script) :
    (ahead n next).Seals full post ↔ ∀ k, (next k).Seals full post := Iff.rfl

/-- Looking at the current token places nothing in the frame. -/
@[simp] theorem seals_current (next : Kind → Script) :
    (current next).Seals full post ↔ ∀ k, (next k).Seals full post := Iff.rfl

/-- Looking at the current text places nothing in the frame. -/
@[simp] theorem seals_currentText (next : String → Script) :
    (currentText next).Seals full post ↔ ∀ text, (next text).Seals full post := Iff.rfl

/-- Asking for the end places nothing in the frame. -/
@[simp] theorem seals_stopped (next : Bool → Script) :
    (stopped next).Seals full post ↔ ∀ b, (next b).Seals full post := Iff.rfl

/-- A parse that was cut short is left out, for it is complained about. -/
@[simp] theorem seals_exhausted (next : Bool → Script) :
    (exhausted next).Seals full post ↔ (next false).Seals full post := Iff.rfl

/-- A token that was consumed is the last leaf. -/
@[simp] theorem seals_bump (next : Unit → Script) :
    (bump next).Seals full post ↔ (next ()).Seals true post := Iff.rfl

/-- What is flushed may end with white space. -/
@[simp] theorem seals_flush (next : Unit → Script) :
    (flush next).Seals full post ↔ (next ()).Seals false post := Iff.rfl

/-- A path with a complaint is not followed any further. -/
@[simp] theorem seals_complain (problem : Problem) (detail expected : Option String)
    (next : Unit → Script) :
    (complain problem detail expected next).Seals full post ↔ problem.isComplaint = true := Iff.rfl

/-- A path with a complaint is not followed any further. -/
@[simp] theorem seals_missing (problem : Problem) (what : String) (next : Unit → Script) :
    (missing problem what next).Seals full post ↔ problem.isComplaint = true := Iff.rfl

/-- A warning is about the token that is consumed next, so nothing is lost between. -/
@[simp] theorem seals_remark_bump (problem : Problem) (f : Unit → Fragment α) (next : α → Script) :
    (remark problem fun _ => (bump >>= f) next).Seals full post ↔
      ((bump >>= f) next).Seals full post :=
  and_iff_right rfl

/-- A node must end with a token, and then is itself the last of the frame. -/
@[simp] theorem seals_node (k : Kind) (body : Fragment Unit) (next : Unit → Script) :
    (node k body next).Seals full post ↔
      body.unit.Seals false (· = true) ∧ (next ()).Seals true post := Iff.rfl

/-- A group must end with a token, and then so does the frame. -/
@[simp] theorem seals_group (body : Fragment Unit) (next : Unit → Script) :
    (group body next).Seals full post ↔
      body.unit.Seals false (· = true) ∧ (next ()).Seals true post := Iff.rfl

/-- What is wrapped must end with a token. -/
@[simp] theorem seals_wrap (k : Kind) (body : Fragment Unit) (next : Unit → Script) :
    (wrap k body next).Seals full post ↔
      body.unit.Seals full (· = true) ∧ (next ()).Seals true post := Iff.rfl

/-- A level that is refused is complained about, so only one that is granted is followed. -/
@[simp] theorem seals_deeper (body : Fragment Unit) (next : Bool → Script) :
    (deeper body next).Seals full post ↔
      body.unit.Seals full fun full' => (next true).Seals full' post := Iff.rfl

/-- A delimiter that is not closed is complained about, so the closer is the last leaf. -/
@[simp] theorem seals_enclosed (d : Delimiter) (construct : String) (body : Fragment Unit)
    (next : Unit → Script) :
    (enclosed d construct body next).Seals full post ↔
      body.unit.Seals true (fun _ => True) ∧ (next ()).Seals true post := Iff.rfl

/-- As `seals_enclosed`. -/
@[simp] theorem seals_enclosedNonempty (d : Delimiter) (construct : String) (ifEmpty : Problem)
    (body : Fragment Bool) (next : Unit → Script) :
    (enclosedNonempty d construct ifEmpty body next).Seals full post ↔
      body.script.Seals true (fun _ => True) ∧ (next ()).Seals true post := Iff.rfl

/-- A rule fills what it was called in, if it surely consumes. -/
@[simp] theorem seals_ask (rule : Rule) (next : Bool → Script) :
    (ask rule next).Seals full post ↔ ∀ b, (next b).Seals (rule.fills full) post := Iff.rfl

/-- A rule fills what it was called in, if it surely consumes. -/
@[simp] theorem seals_call (rule : Rule) (next : Unit → Script) :
    (call rule next).Seals full post ↔ (next ()).Seals (rule.fills full) post := by
  simp [call, Script.Seals]

/-! ## Combinations -/

/-- Testing for a kind places nothing in the frame. -/
@[simp] theorem seals_isAt (k : Kind) (next : Bool → Script) :
    (isAt k next).Seals full post ↔ (next true).Seals full post ∧ (next false).Seals full post :=
  forall_beq_iff (P := fun b => (next b).Seals full post) k

/-- Testing for a set places nothing in the frame. -/
@[simp] theorem seals_isAtAny (set : TokenSet) (next : Bool → Script) :
    (isAtAny set next).Seals full post ↔ ∀ k, (next (set.contains k)).Seals full post := Iff.rfl

/-- Either the token is the last leaf, or all is as before. -/
@[simp] theorem seals_eat (k : Kind) (next : Bool → Script) :
    (eat k next).Seals full post ↔
      (next true).Seals true post ∧ (next false).Seals full post := by
  simp [eat]

/-- Either the token is the last leaf, or all is as before. -/
@[simp] theorem seals_optionally (k : Kind) (next : Unit → Script) :
    (optionally k next).Seals full post ↔
      (next ()).Seals true post ∧ (next ()).Seals full post := by
  simp [optionally]

/-- A token that is missing is complained about, so it is there. -/
@[simp] theorem seals_expect (k : Kind) (what : String) (next : Bool → Script) :
    (expect k what next).Seals full post ↔ (next true).Seals true post := by
  simp [expect, Problem.isComplaint_iff]

/-- A token that is missing is complained about, so it is there. -/
@[simp] theorem seals_require (k : Kind) (what : String) (next : Unit → Script) :
    (require k what next).Seals full post ↔ (next ()).Seals true post := by
  simp [require]

/-- A name that is missing is complained about, so it is there. -/
@[simp] theorem seals_identifier (what : String) (next : Unit → Script) :
    (identifier what next).Seals full post ↔ (next ()).Seals true post := by
  simp [identifier, Problem.isComplaint_iff]

/-- The assertion about where a rule begins places nothing in the frame. -/
@[simp] theorem seals_entered (k : Kind) (next : Unit → Script) :
    (entered k next).Seals full post ↔ (next ()).Seals full post := by
  constructor
  · intro h
    simpa using h k
  · intro h k'
    dsimp only
    split
    · exact h
    · trivial

/-- What is set aside is complained about first. -/
@[simp] theorem seals_setAside (problem : Problem) (what : String) (stops : TokenSet)
    (rest : Fragment Unit) (next : Unit → Script) :
    (setAside problem what stops rest next).Seals full post ↔
      problem.isComplaint = true ∧ (next ()).Seals true post := Iff.rfl

end Fragment

namespace Grammar

open Fragment

variable {full : Bool} {post : Bool → Prop}

/-- The look at whether a function literal begins consumes nothing. -/
private theorem seals_atFnLiteral {next : Bool → Script} (h : ∀ b, (next b).Seals full post) :
    (atFnLiteral next).Seals full post := by
  simp only [atFnLiteral, seals_bind, seals_ahead]
  intro k
  split <;> simp [h]

/-- The look at whether a record begins consumes nothing. -/
private theorem seals_atRecordBody {next : Bool → Script} (h : ∀ b, (next b).Seals full post) :
    (atRecordBody next).Seals full post := by
  simp [atRecordBody, h]

/-- The look at which accessor comes consumes nothing. -/
private theorem seals_accessorHere {next : Option Accessor → Script}
    (h : ∀ a, (next a).Seals full post) : (accessorHere next).Seals full post := by
  simp only [accessorHere, seals_bind, seals_current]
  intro k
  split <;> simp [h]

/-- A list in delimiters ends with a token, or complains. -/
@[simp] theorem seals_delimited (form : ListForm) (next : Unit → Script) :
    (delimited form next).Seals full post ↔ (next ()).Seals true post := by
  simp [delimited, unit]

/-- The name behind a dot ends with a token, or complains. -/
private theorem seals_memberName (after : String) {next : Unit → Script}
    (h : (next ()).Seals true post) : (memberName after next).Seals full post := by
  simp only [memberName, seals_bind, seals_isAtAny, seals_ite, seals_bump,
    seals_missing]
  intro k
  split
  · exact h
  · rfl

/-- An accessor ends with a token, or complains. -/
@[simp] theorem seals_accessor (a : Accessor) (next : Unit → Script) :
    (accessor a next).Seals full post ↔ (next ()).Seals true post := by
  unfold accessor
  rw [seals_node]
  refine and_iff_right ?_
  cases a with
  | field => exact seals_memberName "`.`" rfl
  | static => exact seals_memberName "`::`" rfl
  | index => simp [unit]
  | arguments => simp [unit]
  | nonNull => simp [unit]

/-- What a member declares, after its modifiers. -/
private theorem seals_declaration (k : Kind) (h : post true) :
    ((match k with
      | .kwFunction => do
        call .fnDecl
        optionally .semiColon
      | .identifier => do
        attrDecl
        optionally .semiColon
      | _ => do
        missing .expectedIdentifier "an attribute or function declaration"
        optionally .semiColon : Fragment Unit) fun _ => .done true).Seals full post := by
  split <;> simp [attrDecl, ascription, unit, Problem.isComplaint_iff, h]

end Grammar

/-! ## The rules

One lemma for each rule. -/

/-- A rule that seals what it opens, and ends with a token where it promises to. -/
def Rule.IsSealed (rule : Rule) : Prop :=
  ∀ full, rule.script.Seals full fun full' => rule.fills full = true → full' = true

private theorem Rule.seals_program : Rule.IsSealed .program := by
  intro full
  simp [script, Grammar.program, Fragment.unit]

private theorem Rule.seals_imports : Rule.IsSealed .imports := by
  intro full
  simp [script, Grammar.imports, Fragment.unit]

private theorem Rule.seals_items : Rule.IsSealed .items := by
  intro full
  simp [script, Grammar.items, Fragment.unit]

private theorem Rule.seals_importDecl : Rule.IsSealed .importDecl := by
  intro full
  simp [script, Grammar.importDecl, Fragment.unit, Problem.isComplaint_iff]

private theorem Rule.seals_fnDecl : Rule.IsSealed .fnDecl := by
  intro full
  simp [script, Grammar.fnDecl, Fragment.unit]

private theorem Rule.seals_typeDecl : Rule.IsSealed .typeDecl := by
  intro full
  simp [script, Grammar.typeDecl, Fragment.unit]

private theorem Rule.seals_body : Rule.IsSealed .body := by
  intro full
  simp [script, Grammar.body, Fragment.unit]

private theorem Rule.seals_block : Rule.IsSealed .block := by
  intro full
  simp [script, Grammar.block, Fragment.unit, Fragment.script]

private theorem Rule.seals_param : Rule.IsSealed .param := by
  intro full
  simp [script, Grammar.param, Grammar.ascription, Fragment.unit]

private theorem Rule.seals_recordProp : Rule.IsSealed .recordProp := by
  intro full
  simp [script, Grammar.recordProp, Fragment.unit]

private theorem Rule.seals_operand : Rule.IsSealed .operand := by
  intro full
  simp [script, Grammar.operand, Grammar.member, Fragment.unit]

private theorem Rule.seals_chain : Rule.IsSealed .chain := by
  intro full
  simp [script, Grammar.chain, Grammar.unary, Fragment.unit, Problem.isComplaint_iff]

private theorem Rule.seals_ifStmt (terminated : Bool) : Rule.IsSealed (.ifStmt terminated) := by
  intro full
  simp [script, Grammar.ifStmt, Grammar.condition, Fragment.unit]

private theorem Rule.seals_initializer : Rule.IsSealed .initializer := by
  intro full
  simp [script, Grammar.initializer, Fragment.unit]

private theorem Rule.seals_expr : Rule.IsSealed .expr := by
  intro full
  simp [script, Grammar.expr, Fragment.unit, Problem.isComplaint_iff]

private theorem Rule.seals_prefixes (count : Nat) : Rule.IsSealed (.prefixes count) := by
  intro full
  simp [script, Grammar.prefixes, Grammar.prefixOperand, Fragment.unit, Problem.isComplaint_iff]

private theorem Rule.seals_typeList : Rule.IsSealed .typeList := by
  intro full
  simp [script, Grammar.typeList, Fragment.unit]

private theorem Rule.seals_unionTail : Rule.IsSealed .unionTail := by
  intro full
  simp [script, Grammar.unionTail, Fragment.unit]

private theorem Rule.seals_typeName : Rule.IsSealed .typeName := by
  intro full
  simp [script, Grammar.typeName, Grammar.typeArgs, Fragment.unit, Problem.isComplaint_iff]

private theorem Rule.seals_typeArgTail : Rule.IsSealed .typeArgTail := by
  intro full
  simp [script, Grammar.typeArgTail, Fragment.unit]

private theorem Rule.seals_discard (stops : TokenSet) : Rule.IsSealed (.discard stops) := by
  intro full
  simp [script, Grammar.discard, Fragment.unit]

private theorem Rule.seals_skipTo (stops : TokenSet) : Rule.IsSealed (.skipTo stops) := by
  intro full
  simp [script, Grammar.skipTo, Fragment.unit]

private theorem Rule.seals_fnTail : Rule.IsSealed .fnTail := by
  intro full
  simp [script, Grammar.fnTail, Fragment.unit]

private theorem Rule.seals_elements (form : ListForm) : Rule.IsSealed (.elements form) := by
  intro full
  cases form <;>
    simp [script, Grammar.elements, Fragment.unit, ListForm.element, ListForm.problem,
      Problem.isComplaint_iff]

private theorem Rule.seals_primary : Rule.IsSealed .primary := by
  intro full
  simp only [script, Grammar.primary, Fragment.unit, Fragment.seals_bind, Fragment.seals_current]
  intro k
  split
  case h_1 => simp [Grammar.namePrimary, Fragment.unit]
  case h_5 =>
    rw [Fragment.seals_bind]
    refine Grammar.seals_atFnLiteral fun b => ?_
    simp [Fragment.unit]
  all_goals simp [Fragment.unit, Problem.isComplaint_iff]

private theorem Rule.seals_item : Rule.IsSealed .item := by
  intro full
  simp only [script, Grammar.item, Fragment.unit, Fragment.seals_bind, Fragment.seals_current]
  intro k
  split <;> simp [Problem.isComplaint_iff]

private theorem Rule.seals_members : Rule.IsSealed .members := by
  intro full
  simp only [script, Grammar.members, Fragment.unit, Fragment.seals_bind, Fragment.seals_stopped,
    Fragment.seals_ite, Fragment.seals_current]
  intro stopped
  split
  · simp
  intro k
  split <;> simp [Problem.isComplaint_iff]

private theorem Rule.seals_statements (seen : Bool) : Rule.IsSealed (.statements seen) := by
  intro full
  simp only [script, Grammar.statements, Fragment.script, Fragment.seals_bind,
    Fragment.seals_stopped, Fragment.seals_ite, Fragment.seals_current]
  intro stopped
  split
  · simp
  intro k
  split <;> simp [Grammar.recoverStatement, Problem.isComplaint_iff]

private theorem Rule.seals_statement : Rule.IsSealed .statement := by
  intro full
  simp only [script, Grammar.statement, Fragment.unit, Fragment.seals_bind,
    Fragment.seals_deeper, Fragment.seals_current]
  intro k
  split
  case h_1 =>
    rw [Fragment.seals_bind]
    refine Grammar.seals_atRecordBody fun b => ?_
    simp [Grammar.exprStmt, Fragment.unit]
  all_goals
    simp [Grammar.exprStmt, Grammar.whileStmt, Grammar.forStmt, Grammar.varStmt,
      Grammar.missingVariable, Grammar.returnStmt, Grammar.recoverStatement, Grammar.condition,
      Fragment.unit, Problem.isComplaint_iff]

private theorem Rule.seals_member : Rule.IsSealed .member := by
  intro full
  simp only [script, Grammar.typeMember, Fragment.unit, Fragment.seals_node, Fragment.seals_bind,
    Fragment.seals_current]
  refine ⟨fun k => ?_, by simp⟩
  split
  all_goals
    simp only [Fragment.seals_bind, Fragment.seals_bump, Fragment.seals_optionally,
      Fragment.seals_current]
  · exact ⟨fun _ => Grammar.seals_declaration _ rfl, fun _ => Grammar.seals_declaration _ rfl⟩
  · exact ⟨fun _ => Grammar.seals_declaration _ rfl, fun _ => Grammar.seals_declaration _ rfl⟩
  · exact fun _ => Grammar.seals_declaration _ rfl

private theorem Rule.seals_accessors (wrapped : Bool) : Rule.IsSealed (.accessors wrapped) := by
  intro full
  simp only [script, Grammar.accessors, Fragment.unit, Fragment.seals_bind]
  refine Grammar.seals_accessorHere fun a => ?_
  cases a with
  | none => simp
  | some a => cases wrapped <;> simp [Fragment.unit]

/-- Rules seal what they open, and most of them end with a token unless they complain. -/
theorem Rule.seals (rule : Rule) (full : Bool) :
    rule.script.Seals full fun full' => rule.fills full = true → full' = true := by
  -- Paths end with a complaint, so those that are left consume what they ask for.
  have hrule : rule.IsSealed := by
    cases rule with
    | program => exact seals_program
    | imports => exact seals_imports
    | items => exact seals_items
    | importDecl => exact seals_importDecl
    | fnDecl => exact seals_fnDecl
    | typeDecl => exact seals_typeDecl
    | body => exact seals_body
    | block => exact seals_block
    | param => exact seals_param
    | recordProp => exact seals_recordProp
    | operand => exact seals_operand
    | chain => exact seals_chain
    | ifStmt terminated => exact seals_ifStmt terminated
    | initializer => exact seals_initializer
    | expr => exact seals_expr
    | prefixes count => exact seals_prefixes count
    | typeList => exact seals_typeList
    | unionTail => exact seals_unionTail
    | typeName => exact seals_typeName
    | typeArgTail => exact seals_typeArgTail
    | discard stops => exact seals_discard stops
    | skipTo stops => exact seals_skipTo stops
    | fnTail => exact seals_fnTail
    | elements form => exact seals_elements form
    | primary => exact seals_primary
    | item => exact seals_item
    | members => exact seals_members
    | statements seen => exact seals_statements seen
    | statement => exact seals_statement
    | member => exact seals_member
    | accessors wrapped => exact seals_accessors wrapped
  exact hrule full

/-- All rules seal what they open. -/
theorem Rule.run_sealing (hrecovery : g.recovery = true) (budget : Nat) :
    Rule.Sealing g (Rule.run g budget) := by
  induction budget with
  | zero =>
    intro rule full s a s' hrun
    cases hrun
  | succ budget ih =>
    intro rule full s a s' hrun hfaultless h hfresh hs
    obtain ⟨hpasses, full', hfull, hs'⟩ := Script.run_sealed hrecovery (Rule.tame_run g budget) ih
      (rule.seals full) hrun hfaultless h (fun o ho => Nat.le_of_lt (hfresh o ho)) (.inr hfresh) hs
    exact ⟨hpasses, hs'.nodes, fun hfills => hs'.full (hfull hfills)⟩

/-! ## Trees -/

/-- If the grammar reports no error, all nodes below the program end with a token that the grammar
    sees.  White space, comments and lexical errors behind a node are not part of it. -/
theorem parse_sealed (o : Options) (source : String) (p : Parsed) (hrecovery : o.recovery = true)
    (hparse : parse o source = .ok (.ok p))
    (hclean : ∀ d ∈ Diagnostic.grammatical p.diagnostics, d.isError = false) :
    ∀ e ∈ p.tree.preorder 0, e.kind ≠ .program →
      ∃ label, e.tree.leaves.getLast? = some label ∧ label.1.isSkipped = false := by
  obtain ⟨a, s, hrun, hfinish⟩ := parseLexed_eq_ok_iff.mp hparse
  obtain ⟨hexhausted, -, htree, hdiagnostics⟩ := State.finish_eq_ok hfinish
  obtain ⟨hsorted, hbounded⟩ := Token.lex_sorted source
  have horderly : (State.initial (Token.lex source) o.stepLimit).Orderly
      ⟨Text.byteLength source.toList, o.recovery, o.depthLimit⟩ :=
    ⟨by simp [State.Waits, State.initial], rfl, hsorted, hbounded⟩
  have hfaultless : s.Faultless := by
    refine ⟨hexhausted, fun d hd hlexical => hclean d (List.mem_filter.mpr ⟨?_, ?_⟩)⟩
    · rw [hdiagnostics]
      exact hd
    · rw [hlexical]
      rfl
  obtain ⟨-, hs⟩ := Rule.run_sealing hrecovery _ _ false _ _ _ hrun hfaultless horderly
    (by simp [State.Fresh, State.initial]) (State.sealed_of_nodes trivial)
  intro e he hkind
  rw [htree, Tree.preorder] at he
  -- The program itself is left out; every other node was sealed when it was finished.
  obtain rfl | he := List.mem_cons.mp he
  · exact absurd rfl hkind
  exact Tree.AllSealed.full_of_mem hs.nodes he

/-- A comment and a lexical error behind a statement belong to the program. -/
theorem parse_sealed_comment : ∃ p, parse .default "a // b\n@" = .ok (.ok p) ∧
    (∀ d ∈ Diagnostic.grammatical p.diagnostics, d.isError = false) ∧
    ∀ e ∈ p.tree.preorder 0, e.kind ≠ .program →
      ∃ label, e.tree.leaves.getLast? = some label ∧ label.1.isSkipped = false := by
  let stray : Diagnostic := { Diagnostic.ofProblem .unrecognizedCharacter ⟨7, 8, by decide⟩ with
    message := "unrecognized character: `@`" }
  have hlex : Token.lex "a // b\n@" = [⟨.identifier, "a", 0, ⟨1, 1⟩⟩, ⟨.whitespace, " ", 1, ⟨1, 2⟩⟩,
      ⟨.lineComment, "// b", 2, ⟨1, 3⟩⟩, ⟨.whitespace, "\n", 6, ⟨1, 7⟩⟩,
      ⟨.garbage, "@", 7, ⟨2, 1⟩⟩] := by decide +kernel
  have hparse : parse .default "a // b\n@" = .ok (.ok ⟨.node .program [.node .exprStmt
      [.node .nameRef [.leaf .identifier "a"]], .leaf .whitespace " ", .leaf .lineComment "// b",
        .leaf .whitespace "\n", .leaf .garbage "@"], [stray]⟩) := by
    rw [parse, hlex]
    decide +kernel
  have hclean : ∀ d ∈ Diagnostic.grammatical [stray], d.isError = false := by
    simp [Diagnostic.grammatical, Diagnostic.ofProblem, stray, Problem.isLexical]
  exact ⟨_, hparse, hclean, parse_sealed .default _ _ rfl hparse hclean⟩

end ScriptTree
