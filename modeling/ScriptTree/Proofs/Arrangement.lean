import ScriptTree.Proofs.Gates
import ScriptTree.Proofs.Signs

/-!
# Operands and operators

An operand is read before the operator that takes it is seen, and `wrap` then makes a node of what
the frame holds.  So it matters what that is: one operand in a chain, and one member before a
postfix operator.  `Script.Arranges` walks through a script with the tokens ahead and the trees of
the frame, and checks each node of an operator when it is made (`Kind.Arranged`).

Complaints change neither the tokens nor the frame, so the walk is the same with and without errors;
only a parse that was cut short is left out.

## Key results

- `Script.run_arranged`: a run leads to where the walk says
- `Rule.arranges`: what the rules of operands add to the frame
-/

namespace ScriptTree

/-! ## Chains -/

namespace Tree

/-- A node with a kind in the set. -/
def IsNodeOf (set : TokenSet) (t : Tree) : Prop :=
  ∃ k cs, t = .node k cs ∧ set.contains k = true

/-- The next token does not go on with a chain. -/
def EndsChain (after : List (Kind × String)) : Prop :=
  TokenSet.binaryOps.contains (kindAt after 0) = false ∧ kindAt after 0 ≠ .kwIs

/-- A whole chain, where `after` is what follows it: an operand by itself, one with an operator and
    another chain, or one with a type test. -/
inductive Chain (after : List (Kind × String)) : Tree → Prop where
  | operand {t : Tree} (ht : t.IsNodeOf .unaryNodes) (hend : EndsChain after) : Chain after t
  | operator {l r : Tree} {op : Kind} {text : String} (hl : l.IsNodeOf .unaryNodes)
      (hop : TokenSet.binaryOps.contains op = true) (hr : Chain after r) :
      Chain after (.node .binaryExpr [l, .leaf op text, r])
  /-- No operand follows the operator. -/
  | cut {l : Tree} {op : Kind} {text : String} (hl : l.IsNodeOf .unaryNodes)
      (hop : TokenSet.binaryOps.contains op = true)
      (hnone : TokenSet.exprFirst.contains (kindAt after 0) = false) :
      Chain after (.node .binaryExpr [l, .leaf op text])
  | test {l : Tree} {text : String} {name : List Tree} (hl : l.IsNodeOf .unaryNodes)
      (hname : name = [] ∨ ∃ text, name = [.leaf .identifier text]) :
      Chain after (.node .isExpr (l :: .leaf .kwIs text :: name))

/-- A node of a set is one of any larger set. -/
theorem IsNodeOf.mono {s s' : TokenSet} {t : Tree} (h : t.IsNodeOf s) (hs : s ∪ s' = s') :
    t.IsNodeOf s' := by
  obtain ⟨k, cs, rfl, hk⟩ := h
  exact ⟨k, cs, rfl, TokenSet.contains_of_union_eq hs hk⟩

/-- The kind of a node of a set is in the set. -/
theorem IsNodeOf.contains {set : TokenSet} {t : Tree} (h : t.IsNodeOf set) :
    set.contains t.kind = true := by
  obtain ⟨k, cs, rfl, hk⟩ := h
  exact hk

/-- A chain is an expression. -/
theorem Chain.isNodeOf {after : List (Kind × String)} {t : Tree} (h : Chain after t) :
    t.IsNodeOf .exprNodes := by
  cases h with
  | operand ht => exact ht.mono (by decide)
  | operator => exact ⟨_, _, rfl, by decide⟩
  | cut => exact ⟨_, _, rfl, by decide⟩
  | test => exact ⟨_, _, rfl, by decide⟩

variable {after : List (Kind × String)} {cs : List Tree}

/-- A binary expression has a unary one on its left, an operator, and a chain on its right. -/
theorem Chain.binaryExpr (h : Chain after (.node .binaryExpr cs)) :
    ∃ l op text rest, cs = l :: .leaf op text :: rest ∧ l.IsNodeOf .unaryNodes ∧
      TokenSet.binaryOps.contains op = true ∧ ((∃ r, rest = [r] ∧ r.Chain after) ∨ rest = []) := by
  cases h with
  | operand ht =>
    have hunary : TokenSet.unaryNodes.contains .binaryExpr = true := ht.contains
    exact absurd hunary (by decide)
  | operator hl hop hr => exact ⟨_, _, _, _, rfl, hl, hop, .inl ⟨_, rfl, hr⟩⟩
  | cut hl hop hnone => exact ⟨_, _, _, _, rfl, hl, hop, .inr rfl⟩

/-- A test for a type has a unary expression on its left and a name on its right. -/
theorem Chain.isExpr (h : Chain after (.node .isExpr cs)) :
    ∃ l text name, cs = l :: .leaf .kwIs text :: name ∧ l.IsNodeOf .unaryNodes ∧
      (name = [] ∨ ∃ text, name = [.leaf .identifier text]) := by
  cases h with
  | operand ht =>
    have hunary : TokenSet.unaryNodes.contains .isExpr = true := ht.contains
    exact absurd hunary (by decide)
  | test hl hname => exact ⟨_, _, _, rfl, hl, hname⟩

end Tree

/-- What the children of a node are if its kind is that of an operator. -/
def Kind.Arranged (k : Kind) (cs : List Tree) (after : List (Kind × String)) : Prop :=
  match k with
  | .binaryExpr | .isExpr => Tree.Chain after (.node k cs)
  | .postfixExpr => ∃ t op text, cs = [t, .leaf op text] ∧ t.IsNodeOf .memberNodes ∧
      TokenSet.postfixOps.contains op = true
  | _ => True

/-- Nodes of other kinds are not arranged. -/
def Kind.isArranged : Kind → Bool
  | .binaryExpr | .isExpr | .postfixExpr => true
  | _ => false

/-- Of a node that is no operator nothing is asked. -/
private theorem Kind.arranged_of_not_isArranged {k : Kind} (h : k.isArranged = false)
    (cs : List Tree) (after : List (Kind × String)) : k.Arranged cs after := by
  unfold Kind.Arranged
  split <;> simp_all [Kind.isArranged]

/-- The node of an operator begins with its first operand and the operator. -/
theorem Kind.Arranged.begins {k : Kind} {cs : List Tree} {after : List (Kind × String)}
    (h : k.Arranged cs after) (hk : k.isArranged = true) :
    ∃ l op text rest, cs = l :: .leaf op text :: rest ∧ l.IsNodeOf .unaryNodes ∧
      (k = .binaryExpr → TokenSet.binaryOps.contains op = true) ∧
      (k = .postfixExpr → TokenSet.postfixOps.contains op = true) := by
  unfold Kind.isArranged at hk
  split at hk
  -- The left operand is the first child in all three forms.
  · obtain ⟨l, op, text, rest, hcs, hl, hop, -⟩ := Tree.Chain.binaryExpr h
    exact ⟨l, op, text, rest, hcs, hl, fun _ => hop, nofun⟩
  · obtain ⟨l, text, rest, hcs, hl, -⟩ := Tree.Chain.isExpr h
    exact ⟨l, _, text, rest, hcs, hl, nofun, nofun⟩
  · obtain ⟨l, op, text, hcs, hl, hop⟩ := h
    exact ⟨l, op, text, [], hcs, hl.mono (by decide), nofun, fun _ => hop⟩
  · cases hk

/-! ## Scripts -/

namespace Rule

/-- Where the rules of operands may be called. -/
def Takes (x : Reading) : Rule → Prop
  | chain => TokenSet.exprFirst.contains (kindAt x.input 0) = true ∧ x.frame = []
  | operand => TokenSet.primaryFirst.contains (kindAt x.input 0) = true
  | _ => True

/-- What the rules of operands add to the frame. -/
def Adds (x y : Reading) : Rule → Prop
  | chain => ∃ t, y.frame = [t] ∧ t.Chain y.input
  | prefixes _ => TokenSet.prefixOps.contains (kindAt x.input 0) = true →
      ∃ t, y.frame = x.frame ++ [t] ∧ t.IsNodeOf .unaryNodes
  | operand => ∃ t, y.frame = x.frame ++ [t] ∧ t.IsNodeOf .operandNodes
  | accessors false => ∀ t, x.frame = [t] → t.IsNodeOf .primaryNodes →
      ∃ u, y.frame = [u] ∧ u.IsNodeOf .memberNodes
  | primary => TokenSet.primaryFirst.contains (kindAt x.input 0) = true →
      kindAt x.input 0 ≠ .kwNew → ∃ t, y.frame = x.frame ++ [t] ∧ t.IsNodeOf .primaryNodes
  | _ => True

end Rule

/-- Run without being cut short, the script makes nodes of operators only of operands and operators
    in order, and `post` holds of its answer and of what it leads to. -/
def Script.Arranges : Script → Reading → (Bool → Reading → Prop) → Prop
  | .done a, x, post => post a x
  | .fail _, _, _ => True
  | .look n next, x, post => (next (kindAt x.input n)).Arranges x post
  | .text next, x, post => (next (frontText x.input)).Arranges x post
  | .stopped next, x, post => (next x.input.isEmpty).Arranges x post
  | .exhausted next, x, post => (next false).Arranges x post
  | .bump next, x, post => ∀ y, x.Eats (kindAt x.input 0) y → next.Arranges y post
  | .flush next, x, post => next.Arranges x post
  | .complain _ next, x, post => next.Arranges x post
  | .remark _ next, x, post => next.Arranges x post
  | .node k body next, x, post => body.Arranges ⟨x.input, []⟩ fun _ y =>
      k.Arranged y.frame y.input ∧ next.Arranges ⟨y.input, x.frame ++ [.node k y.frame]⟩ post
  | .group body next, x, post => body.Arranges ⟨x.input, []⟩ fun _ y =>
      next.Arranges ⟨y.input, x.frame ++ y.frame⟩ post
  | .wrap k body next, x, post => body.Arranges x fun _ y =>
      k.Arranged y.frame y.input ∧ next.Arranges ⟨y.input, [.node k y.frame]⟩ post
  -- A level that is refused cuts the parse short.
  | .deeper body next, x, post => body.Arranges x fun _ y => (next true).Arranges y post
  | .enclosed d _ _ body next, x, post => ∀ y, x.Eats (kindAt x.input 0) y →
      body.Arranges y fun _ z => ∀ w, z.Eats d.closer w ∨ w = z → next.Arranges w post
  | .call rule next, x, post => rule.Takes x ∧ ∀ a y, rule.Adds x y → (next a).Arranges y post

/-- A walk through a script may promise less in the end. -/
theorem Script.Arranges.mono {script : Script} {x : Reading} {post post' : Bool → Reading → Prop}
    (h : script.Arranges x post) (hpost : ∀ a y, post a y → post' a y) :
    script.Arranges x post' := by
  -- Induction on the script.
  induction script generalizing x post post' with
  | done answer => exact hpost _ _ h
  | fail fault => trivial
  | look n next ih => exact ih _ h hpost
  | text next ih => exact ih _ h hpost
  | stopped next ih => exact ih _ h hpost
  | exhausted next ih => exact ih _ h hpost
  | bump next ih => exact fun y heats => ih (h y heats) hpost
  | flush next ih => exact ih h hpost
  | complain c next ih => exact ih h hpost
  | remark problem next ih => exact ih h hpost
  | node k body next ihbody ihnext =>
    exact ihbody h fun _ _ hbody => ⟨hbody.1, ihnext hbody.2 hpost⟩
  | group body next ihbody ihnext => exact ihbody h fun _ _ hbody => ihnext hbody hpost
  | wrap k body next ihbody ihnext =>
    exact ihbody h fun _ _ hbody => ⟨hbody.1, ihnext hbody.2 hpost⟩
  | deeper body next ihbody ihnext => exact ihbody h fun _ _ hbody => ihnext _ hbody hpost
  | enclosed d construct ifEmpty body next ihbody ihnext =>
    exact fun y heats => ihbody (h y heats) fun _ _ hbody w hw => ihnext (hbody w hw) hpost
  | call rule next ih => exact ⟨h.1, fun a y hadds => ih a (h.2 a y hadds) hpost⟩

/-! ## Runs -/

namespace Tree

/-- What trees see behind them starts with the leaves of the trees that follow. -/
private theorem outlooksOf_append {after : List (Kind × String)} {ts us : List Tree} :
    outlooksOf after (ts ++ us) =
      outlooksOf (leavesOf us ++ after) ts ++ outlooksOf after us := by
  induction ts with
  | nil => simp [outlooksOf]
  | cons t ts ih => simp [outlooksOf, ih]

end Tree

namespace Reading

/-- The frame and the tokens ahead spell `labels`, and all nodes of operators in the frame are
    arranged. -/
structure Arranged (labels : List (Kind × String)) (x : Reading) : Prop where
  spelled : Tree.leavesOf x.frame ++ x.input = labels
  nodes : ∀ e ∈ Tree.outlooksOf x.input x.frame, e.1.kind.Arranged e.1.children e.2

variable {labels : List (Kind × String)} {x y : Reading}

/-- At the start there is nothing to arrange. -/
theorem arranged_start (input : List (Kind × String)) : Arranged input ⟨input, []⟩ :=
  ⟨rfl, by simp [Tree.outlooksOf]⟩

/-- A token that is eaten is a leaf, so nothing is asked of it. -/
theorem Arranged.eats (h : x.Arranged labels) {k : Kind} (heats : x.Eats k y) :
    y.Arranged labels := by
  obtain ⟨text, hinput, hframe⟩ := heats
  obtain ⟨hspelled, hnodes⟩ := h
  rw [hinput] at hspelled hnodes
  refine ⟨?_, ?_⟩
  · rw [hframe, ← hspelled]
    simp
  · rw [hframe, Tree.outlooksOf_append]
    simpa [Tree.outlooksOf, Tree.outlooks] using hnodes

/-- What was read apart is put back. -/
theorem Arranged.append (h : x.Arranged labels) (h' : y.Arranged x.input) :
    Arranged labels ⟨y.input, x.frame ++ y.frame⟩ := by
  obtain ⟨hspelled, hnodes⟩ := h
  rw [← h'.spelled] at hspelled hnodes
  refine ⟨?_, ?_⟩
  · rw [← hspelled]
    simp
  · intro e he
    rw [Tree.outlooksOf_append] at he
    obtain he | he := List.mem_append.mp he
    · exact hnodes e he
    · exact h'.nodes e he

/-- A node is made of all that was read. -/
theorem Arranged.wrap (h : x.Arranged labels) {k : Kind} (hk : k.Arranged x.frame x.input) :
    Arranged labels ⟨x.input, [.node k x.frame]⟩ := by
  refine ⟨by simpa using h.spelled, ?_⟩
  intro e he
  simp only [Tree.outlooksOf, Tree.outlooks, Tree.leavesOf_nil, List.nil_append,
    List.append_nil] at he
  obtain rfl | he := List.mem_cons.mp he
  · exact hk
  · exact h.nodes e he

end Reading

variable {g : Setting} {labels : List (Kind × String)}

/-- What a rule does that was not cut short: it adds the trees that it should, and the nodes of
    operators that it makes are arranged. -/
def Rule.Arranging (rules : Rule → State → Reply) : Prop :=
  ∀ rule s a s' labels, rules rule s = .ok (a, s') → s'.Live → rule.Takes s.reading → s.Waits →
    s.reading.Arranged labels →
    rule.Adds s.reading s'.reading ∧ s'.Waits ∧ s'.reading.Arranged labels

/-- From the state the script arranges what it reads, and what that shows of the outcome is what is
    claimed. -/
def Script.KeepsOrder (script : Script) (s : State) (goal : Bool → State → Prop) : Prop :=
  ∃ post labels, script.Arranges s.reading post ∧ s.Waits ∧ s.reading.Arranged labels ∧
    ∀ a s', post a s'.reading → s'.Waits → s'.reading.Arranged labels → goal a s'

namespace Script.KeepsOrder

variable {script next body : Script} {s s' s₁ : State} {goal goal' : Bool → State → Prop}

/-- The order of operands may be kept for a weaker goal. -/
theorem mono (h : script.KeepsOrder s goal) (hgoal : ∀ a s', goal a s' → goal' a s') :
    script.KeepsOrder s goal' := by
  obtain ⟨post, labels, hscript, hwaits, hs, hshown⟩ := h
  exact ⟨post, labels, hscript, hwaits, hs, fun a s' hpost hwaits' hs' =>
    hgoal a s' (hshown a s' hpost hwaits' hs')⟩

/-- In a parse that is not cut short, the answers are what the tokens ahead make them. -/
theorem step (hstep : Step g script s next s') (hlive : s'.Live) (h : script.KeepsOrder s goal) :
    next.KeepsOrder s' goal := by
  obtain ⟨post, labels, hscript, hwaits, hs, hgoal⟩ := h
  obtain ⟨hwaits', hreading⟩ := hstep.still hwaits
  refine ⟨post, labels, ?_, hwaits', by rwa [hreading], hgoal⟩
  rw [hreading]
  -- No step but a look puts anything in front, and none changes what was read.
  cases hstep with
  | look hlook =>
    obtain ⟨rfl, -⟩ := hwaits.look hlook
    exact hscript
  | text next =>
    rw [← State.frontText_reading]
    exact hscript
  | stopped next =>
    rw [State.isStopped_reading (by rw [← hlive.1, State.skip_exhausted]) hlive.2]
    exact hscript
  | exhausted next =>
    rw [hlive.1]
    exact hscript
  | flush | complain | remark => exact hscript

/-- A token that is consumed keeps the order of operands for what follows. -/
theorem bump (hbump : s.bump g = .ok s') (h : (Script.bump next).KeepsOrder s goal) :
    next.KeepsOrder s' goal := by
  obtain ⟨post, labels, hscript, hwaits, hs, hgoal⟩ := h
  obtain ⟨hwaits', k, heats⟩ := hwaits.bump hbump
  have hk := heats.kindAt_eq
  exact ⟨post, labels, hscript _ (by rwa [hk]), hwaits', hs.eats heats, hgoal⟩

/-- A body is read apart, in a frame of its own. -/
theorem emptied {post : Bool → Reading → Prop} (hbody : body.Arranges ⟨s.reading.input, []⟩ post)
    (hgoal : ∀ a s₁, post a s₁.reading → s₁.Waits → s₁.reading.Arranged s.reading.input →
      goal a s₁) : body.KeepsOrder { s.drain with frame := #[] } goal := by
  refine ⟨post, s.reading.input, ?_, State.waits_drain (s := s), ?_, hgoal⟩
  · rwa [State.reading_emptied]
  · rw [State.reading_emptied]
    exact Reading.arranged_start _

/-- The body of a node keeps the order of operands from an empty frame on, and the node then stands
    in the frame outside. -/
theorem node {k : Kind} (h : (Script.node k body next).KeepsOrder s goal) :
    body.KeepsOrder { s.drain with frame := #[] } fun _ s₁ =>
      next.KeepsOrder { s₁ with frame := s.drain.frame.push (.node k s₁.frame.toList) } goal := by
  obtain ⟨post, labels, hscript, hwaits, hs, hgoal⟩ := h
  refine emptied hscript fun _ s₁ ⟨hk, hnext⟩ hwaits₁ h₁ => ?_
  refine ⟨post, labels, ?_, hwaits₁, ?_, hgoal⟩ <;> rw [State.reading_pushNode hwaits]
  · exact hnext
  · exact hs.append (h₁.wrap hk)

/-- The body of a group keeps the order of operands from an empty frame on, and its frame then joins
    the one outside. -/
theorem group (h : (Script.group body next).KeepsOrder s goal) :
    body.KeepsOrder { s.drain with frame := #[] } fun _ s₁ =>
      next.KeepsOrder { s₁ with frame := s.drain.frame ++ s₁.frame } goal := by
  obtain ⟨post, labels, hscript, hwaits, hs, hgoal⟩ := h
  refine emptied hscript fun _ s₁ hnext hwaits₁ h₁ => ?_
  refine ⟨post, labels, ?_, hwaits₁, ?_, hgoal⟩ <;> rw [State.reading_appendFrame hwaits]
  · exact hnext
  · exact hs.append h₁

/-- The body of what wraps keeps the order of operands in the same frame, which then is one node. -/
theorem wrap {k : Kind} (h : (Script.wrap k body next).KeepsOrder s goal) :
    body.KeepsOrder s fun _ s₁ =>
      next.KeepsOrder { s₁ with frame := #[.node k s₁.frame.toList] } goal := by
  obtain ⟨post, labels, hscript, hwaits, hs, hgoal⟩ := h
  refine ⟨_, labels, hscript, hwaits, hs, fun _ s₁ ⟨hk, hnext⟩ hwaits₁ h₁ => ?_⟩
  refine ⟨post, labels, ?_, hwaits₁, ?_, hgoal⟩ <;> rw [State.reading_wrapped]
  · exact hnext
  · exact h₁.wrap hk

/-- On a level that was granted the order of operands is kept, and after it was left. -/
theorem granted {next : Bool → Script} (henter : s.enter g = (true, s₁))
    (h : (Script.deeper body next).KeepsOrder s goal) :
    body.KeepsOrder s₁ fun _ s₂ => (next true).KeepsOrder s₂.leave goal := by
  obtain ⟨post, labels, hscript, hwaits, hs, hgoal⟩ := h
  obtain ⟨hwaits₁, hreading⟩ := hwaits.enter henter
  refine ⟨_, labels, by rw [hreading]; exact hscript, hwaits₁, by rwa [hreading], ?_⟩
  intro _ s₂ hnext hwaits₂ h₂
  obtain ⟨hwaits₃, hreading₃⟩ := hwaits₂.leave
  exact ⟨post, labels, by rw [hreading₃]; exact hnext, hwaits₃, by rwa [hreading₃], hgoal⟩

/-- Between the delimiters the order of operands is kept, and after the closer was read or found
    missing. -/
theorem enclosed {d : Delimiter} {construct : String} {ifEmpty : Option Problem}
    (hopen : s.openDelimiter g d = .ok s₁)
    (h : (Script.enclosed d construct ifEmpty body next).KeepsOrder s goal) :
    body.KeepsOrder s₁ fun b s₂ => ∀ s₃ s₄, s₂.closeDelimiter g d construct = .ok s₃ →
      s₃.closeEmpty g ifEmpty b ((s.skip g).frontSpan g) = .ok s₄ → next.KeepsOrder s₄ goal := by
  obtain ⟨post, labels, hscript, hwaits, hs, hgoal⟩ := h
  obtain ⟨hwaits₁, k, heats⟩ := hwaits.openDelimiter hopen
  have hk := heats.kindAt_eq
  -- What stands inside is arranged with the opener read.
  refine ⟨_, labels, hscript _ (by rwa [hk]), hwaits₁, hs.eats heats, ?_⟩
  intro b s₂ hnext hwaits₂ h₂ s₃ s₄ hclose hempty
  obtain ⟨hwaits₃, hcloser⟩ := hwaits₂.closeDelimiter hclose
  -- The closer is read, or it is missing and the reading unchanged.
  have h₃ : s₃.reading.Arranged labels := by
    obtain heats | ⟨-, hreading⟩ := hcloser
    · exact h₂.eats heats
    · rwa [hreading]
  obtain ⟨hwaits₄, hreading₄⟩ := hwaits₃.closeEmpty hempty
  refine ⟨post, labels, ?_, hwaits₄, by rwa [hreading₄], hgoal⟩
  rw [hreading₄]
  exact hnext _ (hcloser.imp_right And.right)

/-- A rule that was called keeps the order of operands for what follows, since all rules do. -/
theorem call {rules : Rule → State → Reply} (hrules : Rule.Arranging rules) {rule : Rule}
    {next : Bool → Script} {b : Bool} (hcall : rules rule s = .ok (b, s₁)) (hlive : s₁.Live)
    (h : (Script.call rule next).KeepsOrder s goal) : (next b).KeepsOrder s₁ goal := by
  obtain ⟨post, labels, ⟨htakes, hnext⟩, hwaits, hs, hgoal⟩ := h
  obtain ⟨hadds, hwaits₁, h₁⟩ := hrules _ _ _ _ _ hcall hlive htakes hwaits hs
  exact ⟨post, labels, hnext _ _ hadds, hwaits₁, h₁, hgoal⟩

end Script.KeepsOrder

/-- The arrangement of a script shows how operands and operators come together, unless the run is
    cut short. -/
def Script.orderAnalysis {rules : Rule → State → Reply} (hrules : Rule.Arranging rules)
    (hlater : ∀ rule s a s', rules rule s = .ok (a, s') → s.Later g s') :
    Script.Analysis g rules where
  Fine := KeepsOrder
  Last := State.Live
  Before := State.Later g
  lasting := State.later_lasting
  before := hlater
  back hbefore hlive := hlive.of_later hbefore
  outer hlive := hlive
  done := fun ⟨_, _, hscript, hwaits, hs, hgoal⟩ => hgoal _ _ hscript hwaits hs
  step := .step
  bump hbump _ := .bump hbump
  node h := h.node.mono fun _ _ hnext _ _ => hnext
  group h := h.group.mono fun _ _ hnext _ _ => hnext
  wrap h := h.wrap.mono fun _ _ hnext _ _ => hnext
  refused henter hlive _ := absurd hlive.1 (State.exhausted_of_enter henter)
  granted henter h := (h.granted henter).mono fun _ _ hnext _ _ => hnext
  enclosed hopen h := (h.enclosed hopen).mono fun _ _ hnext _ s₃ s₄ hclose hempty _ =>
    hnext s₃ s₄ hclose hempty
  call hcall hlive := .call hrules hcall hlive

/-- A script that arranges operands and operators leads to where it should. -/
theorem Script.run_arranged {rules : Rule → State → Reply} (hrules : Rule.Arranging rules)
    (hlater : ∀ rule s a s', rules rule s = .ok (a, s') → s.Later g s') {script : Script}
    {post : Bool → Reading → Prop} {s s' : State} {a : Bool}
    (hscript : script.Arranges s.reading post) (hrun : script.run g rules s = .ok (a, s'))
    (hlive : s'.Live) (hwaits : s.Waits) (h : s.reading.Arranged labels) :
    post a s'.reading ∧ s'.Waits ∧ s'.reading.Arranged labels := by
  have hkeeps : script.KeepsOrder s fun a s' =>
      post a s'.reading ∧ s'.Waits ∧ s'.reading.Arranged labels :=
    ⟨post, labels, hscript, hwaits, h, fun _ _ hpost hwaits hs => ⟨hpost, hwaits, hs⟩⟩
  exact run_sound (orderAnalysis hrules hlater) hkeeps hrun hlive

/-! ## Steps -/

namespace Fragment

variable {α β : Type} {x : Reading} {post : Bool → Reading → Prop}

/-- A script that is done leaves tokens and frame as they are. -/
@[simp] theorem arranges_done {answer : Bool} :
    (Script.done answer).Arranges x post ↔ post answer x := Iff.rfl

/-- Fragments in sequence are walked through in sequence. -/
@[simp] theorem arranges_bind (m : Fragment α) (f : α → Fragment β) (next : β → Script) :
    ((m >>= f) next).Arranges x post ↔ (m fun a => f a next).Arranges x post := Iff.rfl

/-- Handing on a value changes neither tokens nor frame. -/
@[simp] theorem arranges_pure (a : α) (next : α → Script) :
    ((pure a : Fragment α) next).Arranges x post ↔ (next a).Arranges x post := Iff.rfl

/-- Only the branch that is taken is walked through. -/
@[simp] theorem arranges_ite (c : Prop) [Decidable c] (m n : Fragment α) (next : α → Script) :
    ((if c then m else n) next).Arranges x post ↔
      if c then (m next).Arranges x post else (n next).Arranges x post := by
  split <;> rfl

/-- What stands ahead is known from the tokens. -/
@[simp] theorem arranges_ahead (n : Nat) (next : Kind → Script) :
    (ahead n next).Arranges x post ↔ (next (kindAt x.input n)).Arranges x post := Iff.rfl

/-- The current token is known from the tokens. -/
@[simp] theorem arranges_current (next : Kind → Script) :
    (current next).Arranges x post ↔ (next (kindAt x.input 0)).Arranges x post := Iff.rfl

/-- The current text is known from the tokens. -/
@[simp] theorem arranges_currentText (next : String → Script) :
    (currentText next).Arranges x post ↔ (next (frontText x.input)).Arranges x post := Iff.rfl

/-- A parse that was not cut short stops at the end of the tokens. -/
@[simp] theorem arranges_stopped (next : Bool → Script) :
    (stopped next).Arranges x post ↔ (next x.input.isEmpty).Arranges x post := Iff.rfl

/-- A parse that was cut short is left out. -/
@[simp] theorem arranges_exhausted (next : Bool → Script) :
    (exhausted next).Arranges x post ↔ (next false).Arranges x post := Iff.rfl

/-- The current token becomes a leaf of the frame. -/
@[simp] theorem arranges_bump (next : Unit → Script) :
    (bump next).Arranges x post ↔
      ∀ y, x.Eats (kindAt x.input 0) y → (next ()).Arranges y post := Iff.rfl

/-- The tokens that the grammar skips are not walked through. -/
@[simp] theorem arranges_flush (next : Unit → Script) :
    (flush next).Arranges x post ↔ (next ()).Arranges x post := Iff.rfl

/-- A complaint changes neither tokens nor frame. -/
@[simp] theorem arranges_complain (problem : Problem) (detail expected : Option String)
    (next : Unit → Script) :
    (complain problem detail expected next).Arranges x post ↔ (next ()).Arranges x post := Iff.rfl

/-- A complaint changes neither tokens nor frame. -/
@[simp] theorem arranges_missing (problem : Problem) (what : String) (next : Unit → Script) :
    (missing problem what next).Arranges x post ↔ (next ()).Arranges x post := Iff.rfl

/-- A warning changes neither tokens nor frame. -/
@[simp] theorem arranges_remark (problem : Problem) (next : Unit → Script) :
    (remark problem next).Arranges x post ↔ (next ()).Arranges x post := Iff.rfl

/-- A node is made of the frame of its body, and is arranged when it is made. -/
private theorem arranges_node (k : Kind) (body : Fragment Unit) (next : Unit → Script) :
    (node k body next).Arranges x post ↔ body.unit.Arranges ⟨x.input, []⟩ fun _ y =>
      k.Arranged y.frame y.input ∧
        (next ()).Arranges ⟨y.input, x.frame ++ [Tree.node k y.frame]⟩ post := Iff.rfl

/-- A node whose kind is no operator may have any children. -/
@[simp] theorem arranges_node_free {k : Kind} (hk : k.isArranged = false) (body : Fragment Unit)
    (next : Unit → Script) :
    (node k body next).Arranges x post ↔ body.unit.Arranges ⟨x.input, []⟩ fun _ y =>
      (next ()).Arranges ⟨y.input, x.frame ++ [Tree.node k y.frame]⟩ post := by
  simp only [arranges_node, Kind.arranged_of_not_isArranged hk, true_and]

/-- What a group made is poured into the frame. -/
@[simp] theorem arranges_group (body : Fragment Unit) (next : Unit → Script) :
    (group body next).Arranges x post ↔ body.unit.Arranges ⟨x.input, []⟩ fun _ y =>
      (next ()).Arranges ⟨y.input, x.frame ++ y.frame⟩ post := Iff.rfl

/-- The new node takes all that the frame holds. -/
@[simp] theorem arranges_wrap (k : Kind) (body : Fragment Unit) (next : Unit → Script) :
    (wrap k body next).Arranges x post ↔ body.unit.Arranges x fun _ y =>
      k.Arranged y.frame y.input ∧ (next ()).Arranges ⟨y.input, [.node k y.frame]⟩ post := Iff.rfl

/-- A level that is refused cuts the parse short, so it is left out. -/
@[simp] theorem arranges_deeper (body : Fragment Unit) (next : Bool → Script) :
    (deeper body next).Arranges x post ↔
      body.unit.Arranges x fun _ y => (next true).Arranges y post := Iff.rfl

/-- The opener is eaten, then the body walks, then the closer is eaten if it is there. -/
@[simp] theorem arranges_enclosed (d : Delimiter) (construct : String) (body : Fragment Unit)
    (next : Unit → Script) :
    (enclosed d construct body next).Arranges x post ↔ ∀ y, x.Eats (kindAt x.input 0) y →
      body.unit.Arranges y fun _ z => ∀ w, z.Eats d.closer w ∨ w = z →
        (next ()).Arranges w post := Iff.rfl

/-- As `arranges_enclosed`; the warning changes neither tokens nor frame. -/
@[simp] theorem arranges_enclosedNonempty (d : Delimiter) (construct : String)
    (ifEmpty : Problem) (body : Fragment Bool) (next : Unit → Script) :
    (enclosedNonempty d construct ifEmpty body next).Arranges x post ↔
      ∀ y, x.Eats (kindAt x.input 0) y → body.script.Arranges y fun _ z =>
        ∀ w, z.Eats d.closer w ∨ w = z → (next ()).Arranges w post := Iff.rfl

/-- A rule is walked through by what it takes and adds. -/
@[simp] theorem arranges_ask (rule : Rule) (next : Bool → Script) :
    (ask rule next).Arranges x post ↔
      rule.Takes x ∧ ∀ a y, rule.Adds x y → (next a).Arranges y post := Iff.rfl

/-- A rule is walked through by what it takes and adds. -/
@[simp] theorem arranges_call (rule : Rule) (next : Unit → Script) :
    (call rule next).Arranges x post ↔
      rule.Takes x ∧ ∀ y, rule.Adds x y → (next ()).Arranges y post := by
  simp [call, Script.Arranges]

/-! ## Combinations -/

/-- Whether the kind is there is known from the tokens. -/
@[simp] theorem arranges_isAt (k : Kind) (next : Bool → Script) :
    (isAt k next).Arranges x post ↔ (next (kindAt x.input 0 == k)).Arranges x post := Iff.rfl

/-- Whether a kind of the set is there is known from the tokens. -/
@[simp] theorem arranges_isAtAny (set : TokenSet) (next : Bool → Script) :
    (isAtAny set next).Arranges x post ↔
      (next (set.contains (kindAt x.input 0))).Arranges x post := Iff.rfl

/-- The token is eaten exactly if it is there. -/
@[simp] theorem arranges_eat (k : Kind) (next : Bool → Script) :
    (eat k next).Arranges x post ↔
      if kindAt x.input 0 = k then ∀ y, x.Eats k y → (next true).Arranges y post
      else (next false).Arranges x post := by
  by_cases h : kindAt x.input 0 = k <;> simp [eat, h]

/-- The token is eaten exactly if it is there. -/
@[simp] theorem arranges_optionally (k : Kind) (next : Unit → Script) :
    (optionally k next).Arranges x post ↔
      if kindAt x.input 0 = k then ∀ y, x.Eats k y → (next ()).Arranges y post
      else (next ()).Arranges x post := by
  simp [optionally]

/-- The token is eaten exactly if it is there. -/
@[simp] theorem arranges_expect (k : Kind) (what : String) (next : Bool → Script) :
    (expect k what next).Arranges x post ↔
      if kindAt x.input 0 = k then ∀ y, x.Eats k y → (next true).Arranges y post
      else (next false).Arranges x post := by
  simp [expect]

/-- The token is eaten exactly if it is there. -/
@[simp] theorem arranges_require (k : Kind) (what : String) (next : Unit → Script) :
    (require k what next).Arranges x post ↔
      if kindAt x.input 0 = k then ∀ y, x.Eats k y → (next ()).Arranges y post
      else (next ()).Arranges x post := by
  simp [require]

/-- The name is eaten exactly if it is there. -/
@[simp] theorem arranges_identifier (what : String) (next : Unit → Script) :
    (identifier what next).Arranges x post ↔
      if kindAt x.input 0 = .identifier then
        ∀ y, x.Eats .identifier y → (next ()).Arranges y post
      else (next ()).Arranges x post := by
  simp [identifier]

/-- An error node is one more tree in the frame, wherever it ends. -/
@[simp] theorem arranges_setAside (problem : Problem) (what : String) (stops : TokenSet)
    (body : Fragment Unit) (next : Unit → Script) :
    (setAside problem what stops body next).Arranges x post ↔
      ∀ y, Reading.Eats (kindAt x.input 0) ⟨x.input, []⟩ y → ∀ z, body.unit.Arranges z fun _ w =>
        (next ()).Arranges ⟨w.input, x.frame ++ [Tree.node .error w.frame]⟩ post := by
  rw [setAside, arranges_node_free rfl]
  simp [unit, Rule.Takes, Rule.Adds]

/-- A rule is entered only at its first token, so that may be assumed. -/
@[simp] theorem arranges_entered (k : Kind) (next : Unit → Script) :
    (entered k next).Arranges x post ↔
      (kindAt x.input 0 = k → (next ()).Arranges x post) := by
  unfold entered
  show (if kindAt x.input 0 = k then next () else .fail _ : Script).Arranges x post ↔ _
  split <;> simp_all [Script.Arranges]

end Fragment

/-! ## Parts of rules -/

namespace Grammar

open Fragment

variable {x : Reading} {post : Bool → Reading → Prop}

/-- The look at whether a record begins is decided by the tokens ahead alone. -/
@[simp] theorem arranges_atRecordBody (next : Bool → Script) :
    (atRecordBody next).Arranges x post ↔ (next (startsRecord x.input)).Arranges x post := by
  simp only [atRecordBody, startsRecord, arranges_bind, arranges_ahead, arranges_ite,
    arranges_pure]
  by_cases hname : TokenSet.identifierNames.contains (kindAt x.input 1) = true
  · by_cases hcolon : kindAt x.input 2 = .colon <;> simp [hname, hcolon]
  · simp [hname]

/-- The look at whether a function literal begins is decided by the tokens ahead alone. -/
@[simp] theorem arranges_atFnLiteral (next : Bool → Script) :
    (atFnLiteral next).Arranges x post ↔ (next (startsFnLiteral x.input)).Arranges x post := by
  simp only [atFnLiteral, startsFnLiteral, arranges_bind, arranges_ahead]
  generalize kindAt x.input 1 = k
  split
  · simp
  · by_cases hcolon : kindAt x.input 2 = .colon <;> simp [hcolon]
  · simp_all

/-- The look at which accessor comes is decided by the tokens ahead alone. -/
@[simp] theorem arranges_accessorHere (next : Option Accessor → Script) :
    (accessorHere next).Arranges x post ↔ (next (accessorAt x.input)).Arranges x post := by
  simp only [accessorHere, accessorAt, arranges_bind, arranges_current]
  generalize kindAt x.input 0 = k
  split <;> simp
  split <;> simp_all

/-- Where any tree will do, only the nodes inside matter. -/
private theorem arranges_node_any {k : Kind} (hk : k.isArranged = false) {body : Fragment Unit}
    {next : Unit → Script} (hbody : ∀ y, body.unit.Arranges y fun _ _ => True)
    (hnext : ∀ input cs, (next ()).Arranges ⟨input, x.frame ++ [Tree.node k cs]⟩ post) :
    (node k body next).Arranges x post := by
  rw [arranges_node_free hk]
  exact (hbody _).mono fun _ y _ => hnext y.input y.frame

/-- The name behind a dot leaves nothing in the frame that matters later. -/
private theorem arranges_memberName (after : String) {next : Unit → Script}
    (h : ∀ y, (next ()).Arranges y post) : (memberName after next).Arranges x post := by
  simp only [memberName, arranges_bind, arranges_isAtAny, arranges_ite, arranges_bump,
    arranges_missing]
  split
  · exact fun y _ => h y
  · exact h x

/-- An accessor leaves nothing in the frame that matters later. -/
private theorem arranges_accessor (a : Accessor) {next : Unit → Script}
    (h : ∀ y, (next ()).Arranges y post) : (accessor a next).Arranges x post := by
  refine arranges_node_any (by cases a <;> rfl) (fun y => ?_) fun _ _ => h _
  cases a with
  | field => exact fun _ _ => arranges_memberName "`.`" fun _ => trivial
  | static => exact fun _ _ _ _ => arranges_memberName "`::`" fun _ => trivial
  | index => simp [unit, Rule.Takes]
  | arguments => simp [unit, delimited, Rule.Takes]
  | nonNull => simp [unit]

/-- What may follow a primary expression makes one node with it. -/
private theorem arranges_accessors (wrapped : Bool) :
    (accessors wrapped).unit.Arranges x fun _ y => (Rule.accessors wrapped).Adds x y := by
  simp only [accessors, unit, arranges_bind, arranges_accessorHere]
  -- The loop of accessors ends, or takes one more and goes on.
  cases accessorAt x.input with
  | none =>
    cases wrapped with
    | true => trivial
    | false => exact fun t hframe ht => ⟨t, hframe, ht.mono (by decide)⟩
  | some a =>
    cases wrapped with
    | true =>
      have hmore : (accessor a fun _ => call (.accessors true) fun _ => .done true).Arranges x
          fun _ y => (Rule.accessors true).Adds x y :=
        arranges_accessor a fun y => by simp [Rule.Takes, Rule.Adds]
      exact hmore
    | false =>
      rw [arranges_ite, if_neg Bool.false_ne_true, arranges_wrap]
      have hmore : (accessor a fun _ => call (.accessors true) fun _ => .done true).Arranges x
          fun _ _ => True := arranges_accessor a fun y => by simp [Rule.Takes]
      exact hmore.mono fun _ y _ => ⟨trivial, fun _ _ _ => ⟨_, rfl, _, _, rfl, by decide⟩⟩

/-- A node of a primary expression is what `Rule.primary` adds. -/
private theorem arranges_primaryNode {k : Kind} (hk : TokenSet.primaryNodes.contains k = true)
    {body : Fragment Unit} (hbody : ∀ y, body.unit.Arranges y fun _ _ => True) :
    (node k body fun _ => .done true).Arranges x fun _ y => Rule.primary.Adds x y := by
  have hall : ∀ k ∈ Kind.all, TokenSet.primaryNodes.contains k = true → k.isArranged = false := by
    decide
  refine arranges_node_any (hall k (Kind.mem_all k) hk) hbody fun input cs => ?_
  exact fun _ _ => ⟨_, rfl, _, _, rfl, hk⟩

/-- A name, an array or a record. -/
private theorem arranges_namePrimary :
    (namePrimary fun _ => .done true).Arranges x fun _ y => Rule.primary.Adds x y := by
  -- The three literals and names are one node each.
  have harray : (node .arrayLiteral (do
      bump
      delimited .array) fun _ => .done true).Arranges x fun _ y => Rule.primary.Adds x y :=
    arranges_primaryNode (by decide) fun y => by simp [unit, delimited, Rule.Takes]
  have hrecord : (node .recordLiteral (do
      bump
      delimited .record) fun _ => .done true).Arranges x fun _ y => Rule.primary.Adds x y :=
    arranges_primaryNode (by decide) fun y => by simp [unit, delimited, Rule.Takes]
  have hname : (node .nameRef bump fun _ => .done true).Arranges x
      fun _ y => Rule.primary.Adds x y :=
    arranges_primaryNode (by decide) fun y => by simp [unit]
  simp only [namePrimary, arranges_bind, arranges_ahead, arranges_ite, arranges_currentText,
    arranges_pure, harray, hrecord, hname, ite_self]

/-- A primary expression adds to the frame what `Rule.Adds` says. -/
private theorem arranges_primary : primary.unit.Arranges x fun _ y => Rule.primary.Adds x y := by
  simp only [primary, unit, arranges_bind, arranges_current]
  generalize hk : kindAt x.input 0 = k
  -- One case for each way an operand can start.
  split
  case h_1 => exact arranges_namePrimary
  case h_2 => exact arranges_primaryNode (by decide) fun y => by simp [unit]
  case h_3 => exact arranges_primaryNode (by decide) fun y => by simp [unit, delimited, Rule.Takes]
  case h_4 => exact arranges_primaryNode (by decide) fun y => by simp [unit, delimited, Rule.Takes]
  case h_5 =>
    rw [arranges_bind, arranges_atFnLiteral, arranges_ite]
    split
    · exact arranges_primaryNode (by decide) fun y => by simp [unit, Rule.Takes]
    · exact arranges_primaryNode (by decide) fun y => by simp [unit, Rule.Takes]
  case h_6 =>
    rw [arranges_ite]
    split
    · exact arranges_primaryNode (by decide) fun y => by simp [unit]
    · next hname hhash hcurly hbracket hparen hliteral =>
      -- Nothing but `new` is left among the first tokens of a primary expression.
      rw [arranges_missing]
      intro hfirst hnew
      rw [hk] at hfirst hnew
      have hall : ∀ k ∈ Kind.all, TokenSet.primaryFirst.contains k = true →
          TokenSet.literals.contains k = true ∨ k ∈ ([.identifier, .hash, .lCurly, .lBracket,
            .lParen, .kwNew] : List Kind) := by decide
      have := hall k (Kind.mem_all k) hfirst
      simp_all

/-- Reads one node that may stand before a postfix operator. -/
private theorem arranges_member {next : Unit → Script}
    (h : TokenSet.primaryFirst.contains (kindAt x.input 0) = true)
    (hnext : ∀ y t, y.frame = x.frame ++ [t] → t.IsNodeOf .memberNodes →
      (next ()).Arranges y post) : (member next).Arranges x post := by
  simp only [member, arranges_group, unit, arranges_bind, arranges_isAt, arranges_ite, beq_iff_eq]
  split
  · rw [arranges_node_free rfl]
    -- Without `new` the member is its primary expression and accessors.
    simp only [unit, arranges_bind, arranges_bump, arranges_call, arranges_done, List.nil_append]
    refine fun _ _ => ⟨trivial, fun _ _ => ⟨trivial, fun y _ => ?_⟩⟩
    exact hnext _ _ rfl ⟨_, _, rfl, by decide⟩
  · next hnew =>
    simp only [arranges_call, arranges_done]
    refine ⟨trivial, fun y hprimary => ⟨trivial, fun z haccessors => ?_⟩⟩
    obtain ⟨t, hy, ht⟩ := hprimary h hnew
    obtain ⟨u, hz, hu⟩ := haccessors t hy ht
    exact hnext _ u (by rw [hz]) hu

/-- An operand adds to the frame what `Rule.Adds` says. -/
private theorem arranges_operand (h : TokenSet.primaryFirst.contains (kindAt x.input 0) = true) :
    operand.unit.Arranges x fun _ y => Rule.operand.Adds x y := by
  simp only [operand, unit, arranges_group, arranges_bind]
  refine arranges_member h fun y t hframe ht => ?_
  have hframe : y.frame = [t] := hframe
  rw [arranges_bind, arranges_isAtAny, arranges_ite]
  split
  -- An operand with a postfix operator is a node of its own.
  · next hop =>
    simp only [arranges_wrap, unit, arranges_bump, arranges_done]
    intro z heats
    obtain ⟨text, -, hz⟩ := heats
    rw [hframe, List.singleton_append] at hz
    exact ⟨⟨t, _, text, hz, ht, hop⟩, _, rfl, _, _, rfl, by decide⟩
  · rw [arranges_pure, arranges_done, hframe]
    exact ⟨t, rfl, ht.mono (by decide)⟩

/-- Reads the operand after prefix operators, if there is one. -/
private theorem arranges_prefixOperand (h : ∀ y, post true y) :
    (prefixOperand fun _ => .done true).Arranges x post := by
  simp only [prefixOperand, arranges_bind, arranges_isAtAny, arranges_ite]
  split
  · next hfirst =>
    rw [arranges_call]
    exact ⟨hfirst, fun y _ => h y⟩
  · simp [h]

/-- A run of prefix operators adds to the frame what `Rule.Adds` says. -/
private theorem arranges_prefixes (count : Nat) :
    (prefixes count).unit.Arranges x fun _ y => (Rule.prefixes count).Adds x y := by
  -- All but the innermost prefix open a level each.
  have hnested : (deeper (node .prefixExpr do
        bump
        call (.prefixes (count + 1))) fun granted =>
          (if granted = true then pure () else prefixOperand : Fragment Unit)
            fun _ => .done true).Arranges x fun _ y => (Rule.prefixes count).Adds x y := by
    rw [arranges_deeper, unit, arranges_node_free rfl]
    simp only [unit, arranges_bind, arranges_bump, arranges_call, arranges_done,
      ↓reduceIte, arranges_pure]
    exact fun _ _ => ⟨trivial, fun y _ _ => ⟨_, rfl, _, _, rfl, by decide⟩⟩
  simp only [prefixes, unit, arranges_bind, arranges_isAtAny, arranges_ite]
  split
  · split
    · exact hnested
    · exact hnested
  · next hop => exact arranges_prefixOperand fun y h => absurd h hop

/-- Reads an operand with the operators before and behind it. -/
private theorem arranges_unary {next : Unit → Script}
    (h : TokenSet.exprFirst.contains (kindAt x.input 0) = true)
    (hnext : ∀ y t, y.frame = x.frame ++ [t] → t.IsNodeOf .unaryNodes →
      (next ()).Arranges y post) : (unary next).Arranges x post := by
  simp only [unary, arranges_bind, arranges_isAtAny, arranges_ite]
  split
  -- With a prefix operator the node is built inside, else by the operand.
  · next hop =>
    rw [arranges_call]
    refine ⟨trivial, fun y hadds => ?_⟩
    obtain ⟨t, hframe, ht⟩ := hadds hop
    exact hnext y t hframe ht
  · next hop =>
    rw [arranges_call]
    refine ⟨?_, fun y hadds => ?_⟩
    · rw [TokenSet.exprFirst, TokenSet.contains_union, Bool.or_eq_true] at h
      exact h.resolve_right hop
    · obtain ⟨t, hframe, ht⟩ := hadds
      exact hnext y t hframe (ht.mono (by decide))

/-- A chain of operators adds to the frame what `Rule.Adds` says. -/
private theorem arranges_chain (h : TokenSet.exprFirst.contains (kindAt x.input 0) = true)
    (hframe : x.frame = []) : chain.unit.Arranges x fun _ y => Rule.chain.Adds x y := by
  -- First the operand of the chain.
  simp only [chain, unit, arranges_bind]
  refine arranges_unary h fun y l hy hl => ?_
  rw [hframe, List.nil_append] at hy
  rw [arranges_bind, arranges_current, arranges_ite]
  split
  -- Behind a binary operator stands the rest of the chain, or nothing that starts an expression.
  · next hop =>
    simp only [arranges_bind, arranges_deeper, arranges_wrap, arranges_bump, arranges_isAtAny,
      arranges_ite, arranges_group, arranges_call, arranges_missing, arranges_done, arranges_pure,
      unit]
    rintro z ⟨text, -, hz⟩
    rw [hy, List.singleton_append] at hz
    split
    · next hfirst =>
      refine ⟨⟨hfirst, rfl⟩, ?_⟩
      rintro w ⟨r, hw, hr⟩
      rw [hz, hw]
      exact ⟨.operator hl hop hr, _, rfl, .operator hl hop hr⟩
    · next hnone =>
      have hnone : TokenSet.exprFirst.contains (kindAt z.input 0) = false := by simpa using hnone
      rw [hz]
      exact ⟨.cut hl hop hnone, _, rfl, .cut hl hop hnone⟩
  next hop =>
  rw [arranges_ite]
  split
  -- Behind `is` stands a name, or nothing.
  · next his =>
    simp only [arranges_bind, arranges_wrap, arranges_bump, arranges_eat,
      arranges_missing, arranges_done, arranges_pure, unit, ↓reduceIte, Bool.false_eq_true]
    rintro z ⟨text, -, hz⟩
    rw [hy, his, List.singleton_append] at hz
    have htest (w : Reading) (name : List Tree) (hw : w.frame = l :: .leaf .kwIs text :: name)
        (hname : name = [] ∨ ∃ text, name = [.leaf .identifier text]) :
        Kind.isExpr.Arranged w.frame w.input ∧
          Rule.chain.Adds x ⟨w.input, [.node .isExpr w.frame]⟩ := by
      rw [hw]
      exact ⟨.test hl hname, _, rfl, .test hl hname⟩
    split
    · rintro w ⟨name, -, hw⟩
      exact htest w _ (by rw [hw, hz]; rfl) (.inr ⟨name, rfl⟩)
    · exact htest z [] hz (.inl rfl)
  -- No operator follows.
  · next his =>
    rw [arranges_pure, arranges_done]
    exact ⟨l, hy, .operand hl ⟨by simpa using hop, his⟩⟩

/-- What a member declares, after its modifiers. -/
private theorem arranges_declaration (k : Kind) {post : Bool → Reading → Prop}
    (h : ∀ y, post true y) : ((match k with
      | .kwFunction => do
        call .fnDecl
        optionally .semiColon
      | .identifier => do
        attrDecl
        optionally .semiColon
      | _ => do
        missing .expectedIdentifier "an attribute or function declaration"
        optionally .semiColon : Fragment Unit) fun _ => .done true).Arranges x post := by
  split <;> simp +decide [attrDecl, ascription, unit, Rule.Takes, h]

/-- The recovery from a missing variable leaves nothing in the frame that matters later. -/
private theorem arranges_missingVariable {next : Unit → Script}
    (h : ∀ y, (next ()).Arranges y post) : (missingVariable next).Arranges x post := by
  simp +decide [missingVariable, unit, Rule.Takes, h]

end Grammar

/-! ## The rules

One lemma for each rule. -/

/-- A rule that adds to the frame what it promises, and orders the children of all nodes. -/
def Rule.IsOrderly (rule : Rule) : Prop :=
  ∀ {x : Reading}, rule.Takes x → rule.script.Arranges x fun _ y => rule.Adds x y

private theorem Rule.arranges_program : Rule.IsOrderly .program := by
  intro x h
  simp [script, Grammar.program, Fragment.unit, Takes, Adds]

private theorem Rule.arranges_imports : Rule.IsOrderly .imports := by
  intro x h
  simp [script, Grammar.imports, Fragment.unit, Takes, Adds]

private theorem Rule.arranges_items : Rule.IsOrderly .items := by
  intro x h
  simp [script, Grammar.items, Fragment.unit, Takes, Adds]

private theorem Rule.arranges_item : Rule.IsOrderly .item := by
  intro x h
  simp only [script, Grammar.item, Fragment.unit, Adds, Fragment.arranges_bind,
    Fragment.arranges_current]
  generalize kindAt x.input 0 = k
  split <;> simp [Fragment.unit, Takes]

private theorem Rule.arranges_importDecl : Rule.IsOrderly .importDecl := by
  intro x h
  simp +decide [script, Grammar.importDecl, Fragment.unit, Adds]

private theorem Rule.arranges_fnDecl : Rule.IsOrderly .fnDecl := by
  intro x h
  simp +decide [script, Grammar.fnDecl, Fragment.unit, Takes, Adds]

private theorem Rule.arranges_fnTail : Rule.IsOrderly .fnTail := by
  intro x h
  simp +decide [script, Grammar.fnTail, Grammar.delimited, Fragment.unit, Takes, Adds]

private theorem Rule.arranges_param : Rule.IsOrderly .param := by
  intro x h
  simp +decide [script, Grammar.param, Grammar.ascription, Fragment.unit, Takes, Adds]

private theorem Rule.arranges_typeDecl : Rule.IsOrderly .typeDecl := by
  intro x h
  simp +decide [script, Grammar.typeDecl, Fragment.unit, Takes, Adds]

private theorem Rule.arranges_members : Rule.IsOrderly .members := by
  intro x h
  simp only [script, Grammar.members, Fragment.unit, Adds, Fragment.arranges_bind,
    Fragment.arranges_stopped, Fragment.arranges_ite, Fragment.arranges_current]
  generalize kindAt x.input 0 = k
  split
  · simp
  split <;> simp [Fragment.unit, Takes]

private theorem Rule.arranges_member : Rule.IsOrderly .member := by
  intro x h
  simp only [script, Grammar.typeMember, Fragment.unit, Adds]
  rw [Fragment.arranges_node_free rfl]
  simp only [Fragment.unit, Fragment.arranges_bind, Fragment.arranges_current]
  generalize kindAt x.input 0 = k
  split
  all_goals
    -- The declarations that a modifier may stand in front of.
    simp only [Fragment.arranges_bind, Fragment.arranges_bump, Fragment.arranges_optionally,
      Fragment.arranges_current]
  · refine fun _ _ => ?_
    split
    · exact fun _ _ => Grammar.arranges_declaration _ fun _ => trivial
    · exact Grammar.arranges_declaration _ fun _ => trivial
  · refine fun _ _ => ?_
    split
    · exact fun _ _ => Grammar.arranges_declaration _ fun _ => trivial
    · exact Grammar.arranges_declaration _ fun _ => trivial
  · exact Grammar.arranges_declaration _ fun _ => trivial

private theorem Rule.arranges_statements (seen : Bool) : Rule.IsOrderly (.statements seen) := by
  intro x h
  simp only [script, Grammar.statements, Fragment.script, Adds, Fragment.arranges_bind,
    Fragment.arranges_stopped, Fragment.arranges_ite, Fragment.arranges_current]
  generalize kindAt x.input 0 = k
  split
  · simp
  split <;> simp [Grammar.recoverStatement, Fragment.unit, Takes]

private theorem Rule.arranges_statement : Rule.IsOrderly .statement := by
  intro x h
  simp only [script, Grammar.statement, Fragment.unit, Adds, Fragment.arranges_bind,
    Fragment.arranges_deeper, Fragment.arranges_current]
  generalize hk : kindAt x.input 0 = k
  split
  case h_1 =>
    rw [Fragment.arranges_bind, Grammar.arranges_atRecordBody, Fragment.arranges_ite]
    -- Expression statements, and what is no statement at all.
    split
    · simp +decide [Grammar.exprStmt, Fragment.unit, Takes]
    · simp [Takes]
  case h_5 =>
    simp +decide [Grammar.varStmt, Fragment.unit, Takes]
    intro y _ _
    exact Grammar.arranges_missingVariable fun z => by simp [Takes]
  all_goals
    simp +decide [Grammar.exprStmt, Grammar.whileStmt, Grammar.forStmt, Grammar.returnStmt,
      Grammar.recoverStatement, Grammar.condition, Fragment.unit, Takes]

private theorem Rule.arranges_block : Rule.IsOrderly .block := by
  intro x h
  simp +decide [script, Grammar.block, Fragment.unit, Fragment.script, Takes, Adds]

private theorem Rule.arranges_body : Rule.IsOrderly .body := by
  intro x h
  simp +decide [script, Grammar.body, Fragment.unit, Takes, Adds]

private theorem Rule.arranges_ifStmt (terminated : Bool) : Rule.IsOrderly (.ifStmt terminated) := by
  intro x h
  simp +decide [script, Grammar.ifStmt, Grammar.condition, Fragment.unit, Takes, Adds]

private theorem Rule.arranges_initializer : Rule.IsOrderly .initializer := by
  intro x h
  simp +decide [script, Grammar.initializer, Fragment.unit, Takes, Adds]

private theorem Rule.arranges_expr : Rule.IsOrderly .expr := by
  intro x h
  simp +decide [script, Grammar.expr, Fragment.unit, Takes, Adds]

private theorem Rule.arranges_elements (form : ListForm) : Rule.IsOrderly (.elements form) := by
  intro x h
  cases form <;>
    simp +decide [script, Grammar.elements, ListForm.element, Fragment.unit, Takes, Adds]

private theorem Rule.arranges_recordProp : Rule.IsOrderly .recordProp := by
  intro x h
  simp +decide [script, Grammar.recordProp, Fragment.unit, Takes, Adds]

private theorem Rule.arranges_typeList : Rule.IsOrderly .typeList := by
  intro x h
  simp +decide [script, Grammar.typeList, Fragment.unit, Takes, Adds]

private theorem Rule.arranges_unionTail : Rule.IsOrderly .unionTail := by
  intro x h
  simp [script, Grammar.unionTail, Fragment.unit, Takes, Adds]

private theorem Rule.arranges_typeName : Rule.IsOrderly .typeName := by
  intro x h
  simp +decide [script, Grammar.typeName, Grammar.typeArgs, Fragment.unit, Takes, Adds]

private theorem Rule.arranges_typeArgTail : Rule.IsOrderly .typeArgTail := by
  intro x h
  simp [script, Grammar.typeArgTail, Fragment.unit, Takes, Adds]

private theorem Rule.arranges_discard (stops : TokenSet) : Rule.IsOrderly (.discard stops) := by
  intro x h
  simp [script, Grammar.discard, Fragment.unit, Takes, Adds]

private theorem Rule.arranges_skipTo (stops : TokenSet) : Rule.IsOrderly (.skipTo stops) := by
  intro x h
  simp [script, Grammar.skipTo, Fragment.unit, Takes, Adds]

/-- The script of each rule adds to the frame what the rule promises. -/
theorem Rule.arranges {x : Reading} (rule : Rule) (h : rule.Takes x) :
    rule.script.Arranges x fun _ y => rule.Adds x y := by
  -- The rules for chains, operands and accessors have lemmas of their own; the rest add what they
  -- are.
  have hrule : rule.IsOrderly := by
    cases rule with
    | chain => exact fun h => Grammar.arranges_chain h.1 h.2
    | operand => exact fun h => Grammar.arranges_operand h
    | accessors wrapped => exact fun _ => Grammar.arranges_accessors wrapped
    | primary => exact fun _ => Grammar.arranges_primary
    | prefixes count => exact fun _ => Grammar.arranges_prefixes count
    | program => exact arranges_program
    | imports => exact arranges_imports
    | items => exact arranges_items
    | item => exact arranges_item
    | importDecl => exact arranges_importDecl
    | fnDecl => exact arranges_fnDecl
    | fnTail => exact arranges_fnTail
    | param => exact arranges_param
    | typeDecl => exact arranges_typeDecl
    | members => exact arranges_members
    | member => exact arranges_member
    | statements seen => exact arranges_statements seen
    | statement => exact arranges_statement
    | block => exact arranges_block
    | body => exact arranges_body
    | ifStmt terminated => exact arranges_ifStmt terminated
    | initializer => exact arranges_initializer
    | expr => exact arranges_expr
    | elements form => exact arranges_elements form
    | recordProp => exact arranges_recordProp
    | typeList => exact arranges_typeList
    | unionTail => exact arranges_unionTail
    | typeName => exact arranges_typeName
    | typeArgTail => exact arranges_typeArgTail
    | discard stops => exact arranges_discard stops
    | skipTo stops => exact arranges_skipTo stops
  exact hrule h

/-- What a rule makes of operands and operators is arranged. -/
theorem Rule.run_arranging (budget : Nat) : Rule.Arranging (Rule.run g budget) := by
  intro rule s a s' labels hrun hlive htakes hwaits h
  induction budget generalizing rule s a s' labels with
  | zero => cases hrun
  | succ budget ih =>
    have hrules : Rule.Arranging (Rule.run g budget) := fun _ _ _ _ _ => ih _ _ _ _ _
    exact Script.run_arranged hrules (fun _ _ _ _ => Rule.run_later) (rule.arranges htakes) hrun
      hlive hwaits h

end ScriptTree
