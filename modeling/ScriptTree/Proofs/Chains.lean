import ScriptTree.Proofs.Arrangement
import ScriptTree.Proofs.Outlines

/-!
# Chains of operators

Operators that stand between operands are not ranked.  A chain nests to the right: its node holds
the first operand, the first operator and the rest of the chain.  That is so in every tree, however
malformed; if the operand after an operator is missing, an error has been reported.

## Key results

- `parse_arranged`: every node of an operator has its operands in order
- `parse_chained`: chains nest to the right, and no node of an operator lacks its first operand
-/

namespace ScriptTree

/-! ## Trees -/

/-- Every node of an operator is arranged, as far as the grammar sees its children. -/
theorem parse_arranged {o : Options} {source : String} {p : Parsed}
    (h : parse o source = .ok (.ok p)) {e : Tree} {after : List (Kind × String)}
    (he : (e, after) ∈ p.tree.significant.outlooks []) : e.kind.Arranged e.children after := by
  obtain ⟨a, s, hrun, hfinish⟩ := parseLexed_eq_ok_iff.mp h
  obtain ⟨hexhausted, hhalted, htree, -⟩ := State.finish_eq_ok hfinish
  have hwaits : (State.initial (Token.lex source) o.stepLimit).Waits := by
    simp [State.Waits, State.initial]
  have hinitial : (State.initial (Token.lex source) o.stepLimit).reading.Arranged
      ((Token.significant (Token.lex source)).map Token.label) := Reading.arranged_start _
  obtain ⟨-, -, -, hnodes⟩ :=
    Rule.run_arranging _ _ _ _ _ _ hrun ⟨hexhausted, hhalted⟩ trivial hwaits hinitial
  have hinput : s.reading.input = [] := by
    obtain ⟨hrest, -⟩ := Rule.run_program_rest hrun hexhausted hhalted
    simp [State.reading, hrest, Token.significant]
  rw [hinput] at hnodes
  rw [htree, Tree.significant, Tree.erase, Tree.outlooks] at he
  -- The program itself is not arranged; its nodes were when they were finished.
  obtain heq | he := List.mem_cons.mp he
  · cases heq
    trivial
  · exact hnodes _ he

namespace Tree

mutual

/-- The nodes of a tree stand in the grammar's view of it, too. -/
private theorem exists_outlook_of_mem_preorder (after : List (Kind × String)) {e : Element}
    {start : Nat} : ∀ {t : Tree}, e ∈ t.preorder start → ∃ rest, (e.tree.significant, rest) ∈
      t.significant.outlooks after
  | leaf _ _, h => by cases h
  | node k cs, h => by
    rw [preorder] at h
    rw [significant, erase, outlooks]
    obtain rfl | h := List.mem_cons.mp h
    · exact ⟨after, List.mem_cons_self⟩
    · obtain ⟨rest, hrest⟩ := exists_outlook_of_mem_preorderOf after h
      exact ⟨rest, List.mem_cons_of_mem _ hrest⟩

/-- Each node of some trees is seen with what comes behind it. -/
private theorem exists_outlook_of_mem_preorderOf (after : List (Kind × String)) {e : Element}
    {start : Nat} : ∀ {ts : List Tree}, e ∈ preorderOf start ts →
      ∃ rest, (e.tree.significant, rest) ∈ outlooksOf after (eraseAll Kind.isSkipped ts)
  | [], h => by cases h
  | t :: ts, h => by
    rw [preorderOf] at h
    rw [eraseAll]
    -- The element is in the first tree, or in one of the others.
    obtain h | h := List.mem_append.mp h
    · have hnode : t.isDropped Kind.isSkipped = false := by
        cases t with
        | leaf k text => cases h
        | node k cs => rfl
      rw [hnode, if_neg Bool.false_ne_true, outlooksOf]
      obtain ⟨rest, hrest⟩ := exists_outlook_of_mem_preorder
        (leavesOf (eraseAll Kind.isSkipped ts) ++ after) h
      exact ⟨rest, List.mem_append_left _ hrest⟩
    · obtain ⟨rest, hrest⟩ := exists_outlook_of_mem_preorderOf after h
      split
      · exact ⟨rest, hrest⟩
      · rw [outlooksOf]
        exact ⟨rest, List.mem_append_right _ hrest⟩

end

end Tree

/-- A selector finds the first child that it looks for. -/
private theorem Outline.Selector.isPresent_of_mem {selector : Selector} {e : Element} {t : Tree}
    (hfirst : selector = firstExpr ∨ ∃ set, selector = .token set)
    (ht : t ∈ e.tree.significant.children) (hfits : selector.symbol.fits t = true) :
    (selector.find e).isPresent = true := by
  -- The fit is decided by kind and text, which erasing leaves as they are.
  have hseen : e.tree.significant.children = e.seen.map (·.tree.significant) := by
    rw [Element.map_seen]
    obtain ⟨t, start⟩ := e
    cases t with
    | leaf k text => simp [Tree.significant, Tree.erase, Tree.children]
    | node k cs => simp [Tree.significant, Tree.erase, Tree.children]
  rw [hseen] at ht
  obtain ⟨c, hc, rfl⟩ := List.mem_map.mp ht
  rw [fits_significant] at hfits
  have hcandidate : c ∈ selector.candidates e :=
    List.mem_filter.mpr ⟨(List.mem_filter.mp hc).1, hfits⟩
  have hleading : selector = leading → e.IsAtom := by
    rintro rfl
    obtain h | ⟨set, h⟩ := hfirst <;> cases h
  rw [isPresent_find hleading]
  -- Something fits, so the first that fits is found.
  cases hall : selector.candidates e with
  | nil =>
    rw [hall] at hcandidate
    cases hcandidate
  | cons c' cs =>
    refine ⟨c', ?_⟩
    obtain rfl | ⟨set, rfl⟩ := hfirst <;> simp [select, firstExpr]

/-- The first operand and the operator are found in the node of an operator. -/
private theorem Outline.isPresent_of_arranged {e : Element} {after : List (Kind × String)}
    (h : e.kind.Arranged e.tree.significant.children after) (hkind : e.kind.isArranged = true)
    {part : String × Selector} (hpart : part ∈ fields e.kind)
    (hname : part.1 ∈ ["lhs", "operator", "operand"]) : (part.2.find e).isPresent = true := by
  obtain ⟨l, op, text, rest, hcs, hl, hbinary, hpost⟩ := h.begins hkind
  have hfirst : ∃ t ∈ e.tree.significant.children, firstExpr.symbol.fits t = true := by
    have hexpr : l.IsNodeOf exprs := hl.mono (by decide)
    obtain ⟨k, cs, rfl, hk⟩ := hexpr
    exact ⟨.node k cs, by simp [hcs], hk⟩
  have hoperator {set : TokenSet} (hop : set.contains op = true) :
      ∃ t ∈ e.tree.significant.children, (Selector.token set).symbol.fits t = true :=
    ⟨.leaf op text, by simp [hcs], hop⟩
  -- The part in question is the first expression or the operator, and something stands for it.
  have hfound : (part.2 = firstExpr ∨ ∃ set, part.2 = .token set) ∧
      ∃ t ∈ e.tree.significant.children, part.2.symbol.fits t = true := by
    generalize e.kind = k at *
    unfold Kind.isArranged at hkind
    split at hkind
    -- A binary expression, a test with `is`, and a postfix expression.
    · simp only [fields, List.mem_cons, List.not_mem_nil, or_false] at hpart
      obtain rfl | rfl | rfl := hpart
      · exact ⟨.inl rfl, hfirst⟩
      · exact ⟨.inr ⟨_, rfl⟩, hoperator (hbinary rfl)⟩
      · exact absurd hname (by decide)
    · simp only [fields, List.mem_cons, List.not_mem_nil, or_false] at hpart
      obtain rfl | rfl := hpart
      · exact ⟨.inl rfl, hfirst⟩
      · exact absurd hname (by decide)
    · simp only [fields, List.mem_cons, List.not_mem_nil, or_false] at hpart
      obtain rfl | rfl := hpart
      · exact ⟨.inl rfl, hfirst⟩
      · exact ⟨.inr ⟨_, rfl⟩, hoperator (hpost rfl)⟩
    · cases hkind
  obtain ⟨hselector, t, ht, hfits⟩ := hfound
  exact Selector.isPresent_of_mem hselector ht hfits

/-- Chains nest to the right in every tree: behind the first operand and the first operator, which
    are always there, the node of an operator holds all the rest of the chain, or an error has been
    reported. -/
theorem parse_chained (o : Options) (source : String) (p : Parsed) (hrecovery : o.recovery = true)
    (hparse : parse o source = .ok (.ok p)) :
    (∀ e after, (e, after) ∈ p.tree.significant.outlooks [] →
      (e.kind = .binaryExpr → ∃ l op text rest, e.children = l :: .leaf op text :: rest ∧
        l.IsNodeOf .unaryNodes ∧ TokenSet.binaryOps.contains op = true ∧
        ((∃ r, rest = [r] ∧ r.IsNodeOf .exprNodes ∧ r.Chain after) ∨
          rest = [] ∧ ∃ d ∈ p.diagnostics, d.isError = true)) ∧
      (e.kind = .isExpr → ∃ l text name, e.children = l :: .leaf .kwIs text :: name ∧
        l.IsNodeOf .unaryNodes ∧ (name = [] ∨ ∃ text, name = [.leaf .identifier text])) ∧
      (e.kind = .postfixExpr → ∃ l op text, e.children = [l, .leaf op text] ∧
        l.IsNodeOf .memberNodes ∧ TokenSet.postfixOps.contains op = true)) ∧
    ∀ e ∈ p.tree.preorder 0, e.kind = .binaryExpr ∨ e.kind = .isExpr ∨ e.kind = .postfixExpr →
      ∀ part ∈ Outline.fields e.kind, part.1 ∈ ["lhs", "operator", "operand"] →
        (part.2.find e).isPresent = true := by
  constructor
  · intro e after he
    -- The nodes: each is arranged as its kind says.
    have harranged := parse_arranged hparse he
    obtain ⟨-, hnode, hfollows⟩ := Tree.split_of_mem_outlooks _ he
    cases e with
    | leaf k text => cases hnode
    | node k cs =>
      refine ⟨?_, ?_, ?_⟩
      · rintro ⟨⟩
        -- The operand on the right is there, or it was cut off and reported.
        obtain ⟨l, op, text, rest, rfl, hl, hop, ⟨r, rfl, hr⟩ | rfl⟩ :=
          Tree.Chain.binaryExpr harranged
        · exact ⟨l, op, text, _, rfl, hl, hop, .inl ⟨r, rfl, hr.isNodeOf, hr⟩⟩
        · refine ⟨l, op, text, _, rfl, hl, hop, .inr ⟨rfl, ?_⟩⟩
          -- Without an error the tree would follow the grammar, where the operand is needed.
          by_contra hclean
          obtain ⟨-, hall⟩ := parse_significant_follows hrecovery hparse (by simpa using hclean)
          obtain ⟨hmatches, -⟩ := (Tree.follows_node _ _).mp (hfollows hall)
          simp [Kind.production, Shape.expr] at hmatches
      · rintro ⟨⟩
        exact Tree.Chain.isExpr harranged
      · rintro ⟨⟩
        exact harranged
  -- The parts: what they need is among the children.
  · intro e he hkind part hpart hname
    obtain ⟨after, houtlook⟩ := Tree.exists_outlook_of_mem_preorder [] he
    have harranged := parse_arranged hparse houtlook
    have hsame : e.tree.significant.kind = e.kind := by
      obtain ⟨t, start⟩ := e
      cases t <;> rfl
    rw [hsame] at harranged
    exact Outline.isPresent_of_arranged harranged (by obtain h | h | h := hkind <;> rw [h] <;> rfl)
      hpart hname

/-- The chain `a+b++=` nests to the right, and the operand that it lacks has been reported. -/
theorem parse_chained_cut : ∃ p, parse .default "a+b++=" = .ok (.ok p) ∧
    ((.node .binaryExpr [.node .postfixExpr [.node .nameRef [.leaf .identifier "b"],
      .leaf .plusPlus "++"], .leaf .eq "="], []) ∈ p.tree.significant.outlooks []) ∧
    (∃ d ∈ p.diagnostics, d.isError = true) ∧
    ∀ e ∈ p.tree.preorder 0, e.kind = .binaryExpr ∨ e.kind = .isExpr ∨ e.kind = .postfixExpr →
      ∀ part ∈ Outline.fields e.kind, part.1 ∈ ["lhs", "operator", "operand"] →
        (part.2.find e).isPresent = true := by
  have hparse : parse .default "a+b++=" = .ok (.ok ⟨.node .program [.node .exprStmt
      [.node .binaryExpr [.node .nameRef [.leaf .identifier "a"], .leaf .plus "+",
        .node .binaryExpr [.node .postfixExpr [.node .nameRef [.leaf .identifier "b"],
          .leaf .plusPlus "++"], .leaf .eq "="]]]],
      [{ Diagnostic.ofProblem .expectedExpression ⟨6, 6, by decide⟩ with
        expected := some "an operand after the operator"
        found := some "end of file" }]⟩) := by decide +kernel
  obtain ⟨hnodes, hparts⟩ := parse_chained .default _ _ rfl hparse
  have hmem : (.node .binaryExpr [.node .postfixExpr [.node .nameRef [.leaf .identifier "b"],
      .leaf .plusPlus "++"], .leaf .eq "="], []) ∈ Tree.outlooks [] (Tree.significant
        (.node .program [.node .exprStmt [.node .binaryExpr [.node .nameRef
          [.leaf .identifier "a"], .leaf .plus "+", .node .binaryExpr [.node .postfixExpr
            [.node .nameRef [.leaf .identifier "b"], .leaf .plusPlus "++"],
              .leaf .eq "="]]]])) := by decide
  obtain ⟨l, op, text, rest, hcs, -, -, ⟨r, rfl, -⟩ | ⟨-, hreported⟩⟩ := (hnodes _ _ hmem).1 rfl
  · cases hcs
  · exact ⟨_, hparse, hmem, hreported, hparts⟩

end ScriptTree
