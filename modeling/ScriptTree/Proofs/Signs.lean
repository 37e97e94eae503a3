import ScriptTree.Outline
import ScriptTree.Proofs.Soundness

/-!
# Signs and operands

A sign that was read as part of a number is cut off if the token before ends an operand.  The lexer
judges that by the kind of one token (`TokenSet.operandEnd`), and what an operand is turns out only
later, in the grammar.  The two agree but for one case: a member may be named by a keyword, and a
keyword ends no operand for the lexer.  So `a.if-1` is read as two statements.

## Key results

- `Piece.apart_splitSigns`: no number keeps its sign behind the end of an operand
- `Tree.Follows.ends`: what an expression ends with, if it follows the grammar
- `parse_signs`: where a number keeps its sign behind an expression, a keyword names a member
-/

namespace ScriptTree

/-! ## Numbers with a sign -/

/-- A number that is written with a sign. -/
def isSignedLabel (label : Kind × String) : Bool :=
  label.1 == .number && label.2.toList.head? == some '-'

/-- No number has a sign behind the end of an operand.  The kind before the first token is `last`.
    -/
def SignsApart (last : Option Kind) : List (Kind × String) → Prop
  | [] => True
  | label :: labels =>
    (isSignedLabel label = true → last.any TokenSet.operandEnd.contains = false) ∧
      SignsApart (some label.1) labels

/-- Of two tokens in a row the second is no number with a sign, if the first ends an operand. -/
theorem SignsApart.of_append {last : Option Kind} {before after : List (Kind × String)}
    {label signed : Kind × String} (h : SignsApart last (before ++ label :: signed :: after))
    (hsigned : isSignedLabel signed = true) : TokenSet.operandEnd.contains label.1 = false := by
  induction before generalizing last with
  | nil => exact h.2.1 hsigned
  | cons first before ih => exact ih h.2

namespace Piece

/-- Kind and text of a piece. -/
def label (p : Piece) : Kind × String := (p.kind, String.ofList p.chars)

/-- A label is signed exactly if its piece is. -/
private theorem isSignedLabel_label (p : Piece) : isSignedLabel p.label = p.isSigned := by
  simp [isSignedLabel, label, isSigned]

/-- The kinds and texts of the pieces that the grammar sees. -/
def significantLabels (ps : List Piece) : List (Kind × String) :=
  (ps.filter (!·.kind.isSkipped)).map label

/-- A piece that is skipped has no label that the grammar sees. -/
private theorem significantLabels_cons_of_skipped {p : Piece} (h : p.kind.isSkipped = true)
    (ps : List Piece) : significantLabels (p :: ps) = significantLabels ps := by
  simp [significantLabels, h]

/-- A piece that is seen has a label that the grammar sees. -/
private theorem significantLabels_cons {p : Piece} (h : p.kind.isSkipped = false)
    (ps : List Piece) : significantLabels (p :: ps) = p.label :: significantLabels ps := by
  simp [significantLabels, h]

/-- After the signs have been cut off, none is left behind the end of an operand. -/
theorem apart_splitSigns (last : Option Kind) (ps : List Piece) :
    SignsApart last (significantLabels (splitSigns last ps)) := by
  -- Induction on the pieces.
  induction ps generalizing last with
  | nil => trivial
  | cons p ps ih =>
    unfold splitSigns
    dsimp only
    split
    case isTrue hsplit =>
      have hnumber : p.kind = .number := by
        rw [Bool.and_eq_true] at hsplit
        exact (eq_cons_of_isSigned hsplit.1).1
      rw [significantLabels_cons rfl, significantLabels_cons rfl, hnumber]
      -- What is left of the number stands behind the minus, and that ends nothing.
      exact ⟨fun h => (Bool.false_ne_true h).elim, fun _ => rfl, ih (some .number)⟩
    case isFalse hkept =>
      cases hskipped : p.kind.isSkipped with
      | true =>
        rw [significantLabels_cons_of_skipped hskipped]
        exact ih last
      | false =>
        rw [significantLabels_cons hskipped]
        refine ⟨fun hsigned => ?_, ih (some p.kind)⟩
        rw [isSignedLabel_label] at hsigned
        simpa [hsigned] using hkept

/-- Places change nothing about kinds and texts. -/
theorem significantLabels_place (start : Nat) (here : LineCol) (ps : List Piece) :
    (Token.significant (place start here ps)).map Token.label = significantLabels ps := by
  induction ps generalizing start here with
  | nil => rfl
  | cons p ps ih =>
    rw [place, Token.significant]
    cases hskipped : p.kind.isSkipped with
    | true =>
      rw [significantLabels_cons_of_skipped hskipped, List.filter_cons_of_neg (by simp [hskipped])]
      exact ih _ _
    | false =>
      rw [significantLabels_cons hskipped, List.filter_cons_of_pos (by simp [hskipped]),
        List.map_cons]
      exact congrArg _ (ih _ _)

end Piece

/-- The significant tokens of a source. -/
def sourceLabels (source : String) : List (Kind × String) :=
  (Token.significant (Token.lex source)).map Token.label

/-- No token of a source is a number with a sign behind the end of an operand. -/
private theorem Token.apart_lex (source : String) : SignsApart none (sourceLabels source) := by
  rw [sourceLabels, Token.lex, Piece.significantLabels_place]
  exact Piece.apart_splitSigns none _

/-! ## What stands behind a node -/

namespace Tree

mutual

/-- The nodes of a tree, each with the leaves that stand behind it. -/
def outlooks (after : List (Kind × String)) : Tree → List (Tree × List (Kind × String))
  | leaf _ _ => []
  | node kind children => (node kind children, after) :: outlooksOf after children

/-- The nodes of trees that follow each other, each with the leaves that stand behind it. -/
def outlooksOf (after : List (Kind × String)) : List Tree → List (Tree × List (Kind × String))
  | [] => []
  | t :: ts => outlooks (leavesOf ts ++ after) t ++ outlooksOf after ts

end

mutual

/-- A node stands somewhere in the tree, with these leaves behind it. -/
theorem split_of_mem_outlooks (t : Tree) {e : Tree} {after rest : List (Kind × String)}
    (h : (e, rest) ∈ outlooks after t) :
    (∃ before, t.leaves ++ after = before ++ e.leaves ++ rest) ∧
      e.isNode = true ∧ (t.Follows → e.Follows) := by
  cases t with
  | leaf k text => simp [outlooks] at h
  | node k cs =>
    rw [outlooks] at h
    obtain heq | h := List.mem_cons.mp h
    · cases heq
      exact ⟨⟨[], rfl⟩, rfl, id⟩
    · obtain ⟨⟨before, hbefore⟩, hnode, hfollows⟩ := split_of_mem_outlooksOf cs h
      exact ⟨⟨before, by rw [leaves_node, hbefore]⟩, hnode,
        fun hcs => hfollows ((follows_node k cs).mp hcs).2⟩

/-- A node of some trees stands between the leaves before it and those behind it. -/
private theorem split_of_mem_outlooksOf (ts : List Tree) {e : Tree}
    {after rest : List (Kind × String)} (h : (e, rest) ∈ outlooksOf after ts) :
    (∃ before, leavesOf ts ++ after = before ++ e.leaves ++ rest) ∧
      e.isNode = true ∧ (FollowsAll ts → e.Follows) := by
  cases ts with
  | nil => simp [outlooksOf] at h
  | cons t ts =>
    rw [outlooksOf] at h
    obtain h | h := List.mem_append.mp h
    · obtain ⟨⟨before, hbefore⟩, hnode, hfollows⟩ := split_of_mem_outlooks t h
      exact ⟨⟨before, by rw [leavesOf_cons, List.append_assoc, hbefore]⟩, hnode,
        fun hall => hfollows ((followsAll_cons t ts).mp hall).1⟩
    · obtain ⟨⟨before, hbefore⟩, hnode, hfollows⟩ := split_of_mem_outlooksOf ts h
      refine ⟨⟨t.leaves ++ before, ?_⟩, hnode,
        fun hall => hfollows ((followsAll_cons t ts).mp hall).2⟩
      rw [leavesOf_cons, List.append_assoc, hbefore]
      simp only [List.append_assoc]

end

mutual

/-- The leaves of a tree without those that are dropped. -/
private theorem leaves_erase (drop : Kind → Bool) (k : Kind) (cs : List Tree) :
    ((node k cs).erase drop).leaves = (node k cs).leaves.filter (!drop ·.1) := by
  rw [erase, leaves_node, leaves_node, leavesOf_eraseAll]

/-- The leaves of what is left are those that are not dropped. -/
private theorem leavesOf_eraseAll (drop : Kind → Bool) (ts : List Tree) :
    leavesOf (eraseAll drop ts) = (leavesOf ts).filter (!drop ·.1) := by
  cases ts with
  | nil => rfl
  | cons t ts =>
    rw [eraseAll, leavesOf_cons, List.filter_append, ← leavesOf_eraseAll drop ts]
    cases t with
    | leaf k text => cases h : drop k <;> simp [isDropped, erase, h]
    | node k cs => simp only [isDropped, Bool.false_eq_true, if_false, leavesOf_cons,
        leaves_erase drop k cs]

end

/-! ## The ends of expressions -/

/-- The last leaf ends an operand, or is a keyword that names a member. -/
def Ends (t : Tree) : Prop :=
  ∃ before last, t.leaves = before ++ [last] ∧ (TokenSet.operandEnd.contains last.1 = true ∨
    TokenSet.keywords.contains last.1 = true ∧
      ∃ init mark, before = init ++ [mark] ∧ (mark.1 = .dot ∨ mark.1 = .colon))

/-- A node ends like its last child. -/
theorem Ends.node {t : Tree} (h : t.Ends) (k : Kind) (ts : List Tree) :
    (Tree.node k (ts ++ [t])).Ends := by
  obtain ⟨before, last, hleaves, hlast⟩ := h
  refine ⟨leavesOf ts ++ before, last, by simp [hleaves], ?_⟩
  obtain hend | ⟨hkeyword, init, mark, rfl, hmark⟩ := hlast
  · exact .inl hend
  · exact .inr ⟨hkeyword, leavesOf ts ++ init, mark, (List.append_assoc _ _ _).symm, hmark⟩

end Tree

/-- Nodes that end as operands do: expressions, accessors and bodies. -/
def TokenSet.endingNodes : TokenSet := exprNodes ∪ accessorNodes ∪ single .logicBlock

/-- What the last children of such a node may be. -/
inductive Tree.Closes : List Tree → Prop where
  | token (before : List Tree) {k : Kind} (text : String)
    (hk : TokenSet.operandEnd.contains k = true) : Closes (before ++ [.leaf k text])
  | node (before : List Tree) {k : Kind} (cs : List Tree)
    (hk : TokenSet.endingNodes.contains k = true) : Closes (before ++ [.node k cs])
  | name (before : List Tree) {mark k : Kind} (point text : String)
    (hmark : mark = .dot ∨ mark = .colon) (hk : TokenSet.identifierNames.contains k = true) :
    Closes (before ++ [.leaf mark point, .leaf k text])

/-- A set that adds nothing to another one is a part of it. -/
theorem TokenSet.contains_of_union_eq {s t : TokenSet} (h : s ∪ t = t) {k : Kind}
    (hk : s.contains k = true) : t.contains k = true := by
  rw [← h, contains_union, hk, Bool.true_or]

namespace Shape

variable {shapes : List Shape} {ts : List Tree} {set : TokenSet}

/-- The end of a row has the last of its shapes. -/
private theorem matches_row_getLast {last : Shape} (h : (row shapes).Matches ts)
    (hlast : shapes.getLast? = some last) : ∃ us vs, ts = us ++ vs ∧ last.Matches vs := by
  obtain ⟨init, rfl⟩ := List.getLast?_eq_some_iff.mp hlast
  clear hlast
  induction init generalizing ts with
  | nil =>
    obtain ⟨us, -, rfl, hus, rfl⟩ := h
    exact ⟨[], us, by simp, hus⟩
  | cons shape shapes ih =>
    obtain ⟨first, rest, rfl, -, hrest⟩ := h
    obtain ⟨us, vs, rfl, hvs⟩ := ih hrest
    exact ⟨first ++ us, vs, (List.append_assoc _ _ _).symm, hvs⟩

/-- A row that ends with a token ends with the end of an operand, if all these tokens are. -/
private theorem closes_of_tokens (h : (row shapes).Matches ts)
    (hlast : shapes.getLast? = some (tokens set))
    (hset : set ∪ TokenSet.operandEnd = TokenSet.operandEnd) : Tree.Closes ts := by
  obtain ⟨us, vs, rfl, hvs⟩ := matches_row_getLast h hlast
  obtain ⟨k, text, rfl, hk⟩ := matches_tokens.mp hvs
  exact .token us text (TokenSet.contains_of_union_eq hset hk)

/-- A row that ends with a node ends as that node does. -/
private theorem closes_of_nodes (h : (row shapes).Matches ts)
    (hlast : shapes.getLast? = some (nodes set))
    (hset : set ∪ TokenSet.endingNodes = TokenSet.endingNodes) : Tree.Closes ts := by
  obtain ⟨us, vs, rfl, t, rfl, ht⟩ := matches_row_getLast h hlast
  cases t with
  | leaf k text => simp at ht
  | node k cs => exact .node us cs (TokenSet.contains_of_union_eq hset ht)

/-- A member expression ends with its last accessor, or with its base. -/
private theorem closes_of_accessors {k : Kind} {cs : List Tree}
    (hk : TokenSet.endingNodes.contains k = true) (before : List Tree)
    (h : (many (nodes .accessorNodes)).Matches ts) :
    Tree.Closes (before ++ .node k cs :: ts) := by
  obtain rfl | ⟨us, t, rfl⟩ := List.eq_nil_or_concat ts
  · exact .node before cs hk
  · obtain ⟨j, ds, rfl, hj⟩ := matches_many_nodes.mp h t (by simp)
    have hends : TokenSet.endingNodes.contains j = true :=
      TokenSet.contains_of_union_eq (by decide) hj
    simpa using Tree.Closes.node (before ++ .node k cs :: us) ds hends

/-- What the children of an expression, accessor or body end with. -/
private theorem closes_production {k : Kind} (hk : TokenSet.endingNodes.contains k = true)
    (h : k.production.Matches ts) : Tree.Closes ts := by
  -- By the production of the node: most end with a token of their own.
  cases k
  case parenExpr => exact closes_of_tokens h rfl (by decide)
  case arrayLiteral => exact closes_of_tokens h rfl (by decide)
  case recordLiteral => exact closes_of_tokens h rfl (by decide)
  case indexAccess => exact closes_of_tokens h rfl (by decide)
  case callArgs => exact closes_of_tokens h rfl (by decide)
  case logicBlock => exact closes_of_tokens h rfl (by decide)
  case refLiteral => exact closes_of_tokens h rfl (by decide)
  case isExpr => exact closes_of_tokens h rfl (by decide)
  case postfixExpr => exact closes_of_tokens h rfl (by decide)
  -- Some end with a node, which ends an operand in turn.
  case fnLiteral => exact closes_of_nodes h rfl (by decide)
  case binaryExpr => exact closes_of_nodes h rfl (by decide)
  case prefixExpr => exact closes_of_nodes h rfl (by decide)
  -- A postfix mark and the atoms are one token.
  case nonNullAssert =>
    obtain ⟨text, rfl⟩ := matches_token.mp h
    exact .token [] text (by decide)
  case nameRef =>
    obtain ⟨text, rfl⟩ := matches_token.mp h
    exact .token [] text (by decide)
  case literal =>
    obtain ⟨k, text, rfl, hk⟩ := matches_tokens.mp h
    exact .token [] text (TokenSet.contains_of_union_eq (by decide) hk)
  -- The name of a member may be a keyword, and a keyword ends no operand.
  case fieldAccess =>
    obtain ⟨point, us, rfl, hus⟩ := matches_token_cons.mp h
    obtain ⟨k, text, -, rfl, hk, rfl⟩ := matches_tokens_cons.mp hus
    exact .name [] point text (.inl rfl) hk
  case staticAccess =>
    obtain ⟨first, us, rfl, hus⟩ := matches_token_cons.mp h
    obtain ⟨point, vs, rfl, hvs⟩ := matches_token_cons.mp hus
    obtain ⟨k, text, -, rfl, hk, rfl⟩ := matches_tokens_cons.mp hvs
    exact .name [.leaf .colon first] point text (.inr rfl) hk
  -- A member expression ends with its last accessor.
  case memberExpr =>
    obtain h | h := h
    · obtain ⟨text, us, rfl, hus⟩ := matches_token_cons.mp h
      obtain ⟨k, cs, vs, rfl, hk, hvs⟩ := matches_nodes_cons.mp hus
      obtain ⟨ws, -, rfl, hws, rfl⟩ := matches_many_cons.mp hvs
      rw [List.append_nil]
      exact closes_of_accessors (TokenSet.contains_of_union_eq (by decide) hk) [_] hws
    · obtain ⟨k, cs, us, rfl, -, hus⟩ := matches_nodes_cons.mp h
      obtain ⟨j, ds, vs, rfl, hj, hvs⟩ := matches_nodes_cons.mp hus
      obtain ⟨ws, -, rfl, hws, rfl⟩ := matches_many_cons.mp hvs
      rw [List.append_nil]
      exact closes_of_accessors (TokenSet.contains_of_union_eq (by decide) hj) [_] hws
  all_goals exact absurd hk (by decide)

end Shape

/-- A word that may name a member ends an operand, or is a keyword. -/
private theorem TokenSet.operandEnd_of_identifierNames {k : Kind}
    (hk : identifierNames.contains k = true) :
    operandEnd.contains k = true ∨ keywords.contains k = true := by
  have hunion := contains_of_union_eq (show identifierNames ∪ (operandEnd ∪ keywords) =
    operandEnd ∪ keywords by decide) hk
  simpa using hunion

/-- An expression ends as the lexer expects of operands, or with a keyword that names a member. -/
theorem Tree.Follows.ends {k : Kind} {cs : List Tree}
    (hk : TokenSet.endingNodes.contains k = true) (h : (Tree.node k cs).Follows) :
    (Tree.node k cs).Ends := by
  obtain ⟨hshape, hfollows⟩ := (Tree.follows_node k cs).mp h
  cases Shape.closes_production hk hshape with
  | @token before j text hj => exact ⟨Tree.leavesOf before, (j, text), by simp, .inl hj⟩
  | @node before j ds hj =>
    have hlast := (Tree.followsAll_append _ _).mp hfollows
    exact Tree.Ends.node (Tree.Follows.ends hj ((Tree.followsAll_cons _ _).mp hlast.2).1) k before
  | @name before mark j point text hmark hj =>
    refine ⟨Tree.leavesOf before ++ [(mark, point)], (j, text), by simp, ?_⟩
    obtain hend | hkeyword := TokenSet.operandEnd_of_identifierNames hj
    · exact .inl hend
    · exact .inr ⟨hkeyword, _, _, rfl, hmark⟩
termination_by sizeOf cs
decreasing_by
  have hmem : Tree.node j ds ∈ before ++ [Tree.node j ds] := by simp
  have hlt := List.sizeOf_lt_of_mem hmem
  have hcs : cs = before ++ [Tree.node j ds] := by assumption
  rw [Tree.node.sizeOf_spec] at hlt
  rw [hcs]
  omega

/-! ## Signs behind expressions -/

/-- No number with a sign stands behind an expression. -/
def Tree.SignsAreBinary (t : Tree) : Prop :=
  ∀ e label rest, (e, label :: rest) ∈ t.outlooks [] → Outline.exprs.contains e.kind = true →
    isSignedLabel label = false

/-- The grammar's view of a tree holds the tokens that the grammar sees. -/
theorem parse_significant_leaves {o : Options} {source : String} {p : Parsed}
    (h : parse o source = .ok (.ok p)) :
    p.tree.significant.leaves = (Token.significant (Token.lex source)).map Token.label := by
  obtain ⟨⟨children, htree⟩, hleaves⟩ := parseLexed_leaves h
  rw [htree] at hleaves ⊢
  rw [Tree.significant, Tree.leaves_erase, hleaves, List.filter_map]
  rfl

/-- If no error is reported, a number keeps its sign behind an expression only where the expression
    ends with a member that is named by a keyword. -/
theorem parse_signs (o : Options) (source : String) (p : Parsed) (hrecovery : o.recovery = true)
    (hparse : parse o source = .ok (.ok p)) (hclean : p.diagnostics = []) (e : Tree)
    (label : Kind × String) (rest : List (Kind × String))
    (he : (e, label :: rest) ∈ p.tree.significant.outlooks [])
    (hexpr : Outline.exprs.contains e.kind = true) (hsigned : isSignedLabel label = true) :
    ∃ init mark name, e.leaves = init ++ [mark, name] ∧ (mark.1 = .dot ∨ mark.1 = .colon) ∧
      TokenSet.keywords.contains name.1 = true := by
  -- Without reports the tree follows the grammar, so the operand ends as its kind says.
  obtain ⟨-, hfollows⟩ := parse_significant_follows hrecovery hparse (by simp [hclean])
  obtain ⟨⟨before, hsplit⟩, hnode, hinner⟩ := Tree.split_of_mem_outlooks _ he
  cases e with
  | leaf k text => cases hnode
  | node k cs =>
    have hends : TokenSet.endingNodes.contains k = true :=
      TokenSet.contains_of_union_eq (by decide) hexpr
    obtain ⟨prior, last, hlast, hword⟩ := Tree.Follows.ends hends (hinner hfollows)
    have hnext : sourceLabels source = (before ++ prior) ++ last :: label :: rest := by
      rw [sourceLabels, ← parse_significant_leaves hparse,
        ← List.append_nil p.tree.significant.leaves, hsplit, hlast]
      simp
    obtain hend | ⟨hkeyword, init, mark, rfl, hmark⟩ := hword
    · -- The lexer would have cut the sign off.
      have hapart := Token.apart_lex source
      rw [hnext] at hapart
      rw [hapart.of_append hsigned] at hend
      cases hend
    -- The operand ends with the name of a member.
    · exact ⟨init, mark, last, by rw [hlast]; simp, hmark, hkeyword⟩

/-- `a.if-1` is read as two statements. -/
theorem parse_memberIf : parse .default "a.if-1" = .ok (.ok ⟨.node .program
    [.node .exprStmt [.node .memberExpr [.node .nameRef [.leaf .identifier "a"],
      .node .fieldAccess [.leaf .dot ".", .leaf .kwIf "if"]]],
    .node .exprStmt [.node .literal [.leaf .number "-1"]]], []⟩) := by decide +kernel

/-- The first statement of `a.if-1` ends with a keyword, so `-1` is a statement of its own. -/
theorem parse_signs_keyword :
    ∃ p e, parse .default "a.if-1" = .ok (.ok p) ∧ p.diagnostics = [] ∧
      (e, [(.number, "-1")]) ∈ p.tree.significant.outlooks [] ∧
      Outline.exprs.contains e.kind = true ∧ isSignedLabel (.number, "-1") = true ∧
      ∃ init mark name, e.leaves = init ++ [mark, name] ∧ (mark.1 = .dot ∨ mark.1 = .colon) ∧
        TokenSet.keywords.contains name.1 = true :=
  ⟨_, .node .memberExpr [.node .nameRef [.leaf .identifier "a"],
    .node .fieldAccess [.leaf .dot ".", .leaf .kwIf "if"]], parse_memberIf, rfl, by decide,
    by decide, by decide, parse_signs .default "a.if-1" _ rfl parse_memberIf rfl _ (.number, "-1")
      [] (by decide) (by decide) (by decide)⟩

/-- A sign may be read as part of a number behind an expression, and nothing is reported. -/
theorem not_signsAreBinary :
    ∃ p, parse .default "a.if-1" = .ok (.ok p) ∧ p.diagnostics = [] ∧
      ¬ p.tree.significant.SignsAreBinary := by
  refine ⟨_, parse_memberIf, rfl, fun hbinary => ?_⟩
  have hsign := hbinary (.node .memberExpr [.node .nameRef [.leaf .identifier "a"],
    .node .fieldAccess [.leaf .dot ".", .leaf .kwIf "if"]]) (.number, "-1") [] (by decide)
    (by decide)
  exact absurd hsign (by decide)

end ScriptTree
