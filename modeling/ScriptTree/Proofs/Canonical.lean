import ScriptTree.Proofs.Productions
import ScriptTree.Proofs.Reading
import ScriptTree.Proofs.Yield

/-!
# Canonical trees

Different trees that follow the grammar can have the same leaves.  A canonical one is the tree that
the grammar chooses: each semicolon belongs to the statement, import or member before it
(`Tree.isSettled`), a braced statement that could be a block is one, and a scalar name before a
bracket names an array (`Kind.arranges`).

The second half says how trees open.  An expression opens with an operator, with `new` or with a
primary expression (`Tree.Opens`), and this settles what the grammar looks ahead for.

## Key results

- `Tree.opens_expr`: every expression opens in one of three ways
- `Tree.Opens.second_colon`: a colon after the first token comes with another one
- `Tree.Opens.startsRecord`: where braces open an expression, a property follows
-/

namespace ScriptTree

/-! ## What is canonical -/

/-- Nodes that may end with a semicolon of their own. -/
def TokenSet.ownerNodes : TokenSet := stmtNodes ∪ ofList [.importDecl, .typeMember]

namespace Tree

mutual

/-- Does the tree begin with a record that has neither a name nor properties? -/
def opensEmptyRecord : Tree → Bool
  | leaf _ _ => false
  | node kind children =>
    (kind == .recordLiteral && children.map Tree.kind == [.lCurly, .rCurly]) ||
      headOpensEmptyRecord children

/-- Function `opensEmptyRecord` for the first of several trees. -/
def headOpensEmptyRecord : List Tree → Bool
  | [] => false
  | t :: _ => t.opensEmptyRecord

end

/-- A name that makes an array literal of the brackets after it. -/
def isScalarName : Tree → Bool
  | node .nameRef [leaf .identifier name] => scalarTypeNames.contains name
  | _ => false

/-- A tree in its place among statements, items, imports or members: if it may own a semicolon, it
    does, and it is none itself.  A statement that begins with `{ }` would be taken for a block. -/
def isSettled : Tree → Bool
  | leaf kind _ => kind != .semiColon
  | node kind children =>
    (!TokenSet.ownerNodes.contains kind || (node kind children).isTerminated) &&
      !(kind == .exprStmt && (node kind children).opensEmptyRecord)

end Tree

/-- The children of a node are the ones that the grammar prefers.  The last semicolon of a block is
    its own. -/
def Kind.arranges : Kind → List Tree → Bool
  | .program, children | .logicBlock, children | .typeDecl, children =>
    children.all Tree.isSettled
  | .block, children => children.dropLast.all Tree.isSettled
  | .arrayLiteral, .leaf .identifier name :: _ => scalarTypeNames.contains name
  | .memberExpr, children => (children.zip children.tail).all fun (t, next) =>
    !(t.isScalarName && next.kind == .indexAccess)
  | _, _ => true

namespace Tree

mutual

/-- All nodes of the tree are arranged as the grammar prefers. -/
def isCanonical : Tree → Bool
  | leaf _ _ => true
  | node kind children => kind.arranges children && allCanonical children

/-- Test `isCanonical` for several trees. -/
def allCanonical : List Tree → Bool
  | [] => true
  | t :: ts => t.isCanonical && allCanonical ts

end

end Tree

/-! ## How trees open -/

variable {k : Kind} {cs : List Tree} {set : TokenSet} {labels rest : List (Kind × String)}

/-- No token is of kind `error`. -/
private theorem lt_length_of_kindAt {n : Nat} (h : kindAt labels n ≠ .error) :
    n < labels.length := by
  refine Nat.lt_of_not_le fun hle => h ?_
  simp [kindAt, List.getElem?_eq_none hle]

/-- Where a token comes next, there is one. -/
theorem isEmpty_eq_false (h : kindAt labels 0 ≠ .error) : labels.isEmpty = false := by
  rw [← Bool.not_eq_true, List.isEmpty_iff]
  rintro rfl
  exact h kindAt_nil

/-- A token of a set is none that is not in the set. -/
theorem ne_of_contains {j : Kind} (h : set.contains k = true) (hj : set.contains j = false) :
    k ≠ j := by
  rintro rfl
  rw [hj] at h
  cases h

/-- A token of a set is in no set that has no member in common with it. -/
theorem TokenSet.not_contains_of_contains {other : TokenSet} (h : set.contains k = true)
    (hdisjoint : ∀ j ∈ set.toList, other.contains j = false) :
    other.contains k = false := hdisjoint k ((mem_toList set k).mpr h)

/-- What comes first in a list that is not empty. -/
theorem Shape.listed_cases (h : (listed (nodes set)).Matches cs) :
    cs = [] ∨ ∃ j ds ts, cs = .node j ds :: ts ∧ set.contains j = true := by
  obtain rfl | ⟨j, ds, hj, rfl | ⟨text, ts, rfl, -⟩⟩ := matches_listed_iff.mp h
  · exact .inl rfl
  · exact .inr ⟨j, ds, [], rfl, hj⟩
  · exact .inr ⟨j, ds, _, rfl, hj⟩

namespace Tree

/-- The children of a primary expression, one form for each of its productions. -/
inductive Primary : Kind → List Tree → Prop
  | name (name : String) : Primary .nameRef [leaf .identifier name]
  | ref (hash name : String) : Primary .refLiteral [leaf .hash hash, leaf .identifier name]
  | literal {k : Kind} (hk : TokenSet.literals.contains k = true) (text : String) :
      Primary .literal [leaf k text]
  | record (opener closer : String) {es : List Tree}
      (h : (Shape.listed (.node .recordProp)).Matches es) :
      Primary .recordLiteral (leaf .lCurly opener :: (es ++ [leaf .rCurly closer]))
  | namedRecord (name opener closer : String) {es : List Tree}
      (h : (Shape.listed (.node .recordProp)).Matches es) :
      Primary .recordLiteral
        (leaf .identifier name :: leaf .lCurly opener :: (es ++ [leaf .rCurly closer]))
  | array (opener closer : String) {es : List Tree} (h : (Shape.listed .expr).Matches es) :
      Primary .arrayLiteral (leaf .lBracket opener :: (es ++ [leaf .rBracket closer]))
  | namedArray (name opener closer : String) {es : List Tree}
      (h : (Shape.listed .expr).Matches es) :
      Primary .arrayLiteral
        (leaf .identifier name :: leaf .lBracket opener :: (es ++ [leaf .rBracket closer]))
  | fn (opener closer : String) {es us : List Tree}
      (h : (Shape.listed (.node .param)).Matches es)
      (hus : (Shape.row [.opt .ascription, .node .logicBlock]).Matches us) :
      Primary .fnLiteral
        (node .paramList (leaf .lParen opener :: (es ++ [leaf .rParen closer])) :: us)
  | paren (opener closer : String) {k : Kind} {cs : List Tree}
      (hk : TokenSet.exprNodes.contains k = true) :
      Primary .parenExpr [leaf .lParen opener, node k cs, leaf .rParen closer]

/-- The parameters of a function stand between parentheses. -/
theorem paramList_cases (h : (Kind.production .paramList).Matches cs) :
    ∃ opener es closer, cs = leaf .lParen opener :: (es ++ [leaf .rParen closer]) ∧
      (Shape.listed (.node .param)).Matches es := by
  simp only [Kind.production, Shape.matches_token_cons, Shape.matches_listed_cons,
    Shape.matches_row_nil] at h
  obtain ⟨opener, -, rfl, es, -, rfl, hes, closer, -, rfl, rfl⟩ := h
  exact ⟨opener, es, closer, rfl, hes⟩

/-- A parameter is a name and its types. -/
theorem param_cases (h : (Kind.production .param).Matches cs) :
    ∃ name colon ds, cs = [leaf .identifier name, leaf .colon colon, node .typeList ds] := by
  simp only [Kind.production, Shape.matches_token_cons, Shape.matches_node_cons,
    Shape.matches_row_nil] at h
  obtain ⟨name, -, rfl, colon, -, rfl, ds, -, rfl, rfl⟩ := h
  exact ⟨name, colon, ds, rfl⟩

/-- A property is a name and its value. -/
theorem recordProp_cases (h : (Kind.production .recordProp).Matches cs) :
    ∃ i name colon j ds, cs = [leaf i name, leaf .colon colon, node j ds] ∧
      TokenSet.identifierNames.contains i = true ∧ TokenSet.exprNodes.contains j = true := by
  simp only [Kind.production, Shape.expr, Shape.matches_token_cons, Shape.matches_tokens_cons,
    Shape.matches_nodes_cons, Shape.matches_row_nil] at h
  obtain ⟨i, name, -, rfl, hi, colon, -, rfl, j, ds, -, rfl, hj, rfl⟩ := h
  exact ⟨i, name, colon, j, ds, rfl, hi, hj⟩

/-- A primary node is of one of the forms that there are. -/
theorem primary_cases (hk : TokenSet.primaryNodes.contains k = true) (h : (node k cs).Follows) :
    Primary k cs := by
  obtain ⟨hshape, hfollows⟩ := (follows_node k cs).mp h
  simp only [TokenSet.primaryNodes, TokenSet.contains_ofList, List.contains_iff_mem, List.mem_cons,
    List.not_mem_nil, or_false] at hk
  -- One case for each kind of primary expression.
  obtain rfl | rfl | rfl | rfl | rfl | rfl | rfl := hk
  -- With the kind known, its production lists the children one by one.
  all_goals
    simp only [Kind.production, Shape.expr, Shape.matches_token, Shape.matches_tokens,
      Shape.matches_token_cons, Shape.matches_node_cons, Shape.matches_nodes_cons,
      Shape.matches_opt_cons, Shape.matches_listed_cons, Shape.matches_row_nil] at hshape
  · obtain ⟨name, rfl⟩ := hshape
    exact .name name
  · obtain ⟨hash, -, rfl, name, -, rfl, rfl⟩ := hshape
    exact .ref hash name
  · obtain ⟨k, text, rfl, hk⟩ := hshape
    exact .literal hk text
  -- With the name of a type or without.
  · obtain ⟨opener, -, rfl, es, -, rfl, hes, closer, -, rfl, rfl⟩ |
      ⟨name, -, rfl, opener, -, rfl, es, -, rfl, hes, closer, -, rfl, rfl⟩ := hshape
    · exact .record opener closer hes
    · exact .namedRecord name opener closer hes
  · obtain ⟨opener, -, rfl, es, -, rfl, hes, closer, -, rfl, rfl⟩ |
      ⟨name, -, rfl, opener, -, rfl, es, -, rfl, hes, closer, -, rfl, rfl⟩ := hshape
    · exact .array opener closer hes
    · exact .namedArray name opener closer hes
  -- A function literal shows its parameters first.
  · obtain ⟨ps, us, rfl, hus⟩ := hshape
    have hparams := (follows_node _ _).mp ((followsAll_cons _ _).mp hfollows).1
    obtain ⟨opener, es, closer, rfl, hes⟩ := paramList_cases hparams.1
    refine .fn opener closer hes ?_
    simpa using hus
  · obtain ⟨opener, -, rfl, j, ds, -, rfl, hj, closer, -, rfl, rfl⟩ := hshape
    exact .paren opener closer hj

/-- The children of an accessor. -/
inductive Access : Kind → List Tree → Prop
  | field {j : Kind} (hj : TokenSet.identifierNames.contains j = true) (dot name : String) :
      Access .fieldAccess [leaf .dot dot, leaf j name]
  | static {j : Kind} (hj : TokenSet.identifierNames.contains j = true)
      (colon colon' name : String) :
      Access .staticAccess [leaf .colon colon, leaf .colon colon', leaf j name]
  | index (opener closer : String) {k : Kind} {cs : List Tree}
      (hk : TokenSet.exprNodes.contains k = true) :
      Access .indexAccess [leaf .lBracket opener, node k cs, leaf .rBracket closer]
  | arguments (opener closer : String) {es : List Tree} (h : (Shape.listed .expr).Matches es) :
      Access .callArgs (leaf .lParen opener :: (es ++ [leaf .rParen closer]))
  | nonNull (text : String) : Access .nonNullAssert [leaf .exclMark text]

/-- The node of an accessor is of one of the forms that there are. -/
theorem access_cases (hk : TokenSet.accessorNodes.contains k = true) (h : (node k cs).Follows) :
    Access k cs := by
  have hshape := ((follows_node k cs).mp h).1
  simp only [TokenSet.accessorNodes, TokenSet.contains_ofList, List.contains_iff_mem,
    List.mem_cons, List.not_mem_nil, or_false] at hk
  -- One case for each accessor, from the shape of its node.
  obtain rfl | rfl | rfl | rfl | rfl := hk
  all_goals
    simp only [Kind.production, Shape.expr, Shape.matches_token, Shape.matches_token_cons,
      Shape.matches_tokens_cons, Shape.matches_nodes_cons, Shape.matches_listed_cons,
      Shape.matches_row_nil] at hshape
  · obtain ⟨dot, -, rfl, j, name, -, rfl, hj, rfl⟩ := hshape
    exact .field hj dot name
  · obtain ⟨colon, -, rfl, colon', -, rfl, j, name, -, rfl, hj, rfl⟩ := hshape
    exact .static hj colon colon' name
  · obtain ⟨opener, -, rfl, j, ds, -, rfl, hj, closer, -, rfl, rfl⟩ := hshape
    exact .index opener closer hj
  · obtain ⟨opener, -, rfl, es, -, rfl, hes, closer, -, rfl, rfl⟩ := hshape
    exact .arguments opener closer hes
  · obtain ⟨text, rfl⟩ := hshape
    exact .nonNull text

/-- The children of a member expression: what `new` makes, or a primary expression with at least
    one accessor. -/
theorem memberExpr_cases (h : (Kind.production .memberExpr).Matches cs) :
    (∃ text j ds us, cs = leaf .kwNew text :: node j ds :: us ∧
      TokenSet.primaryNodes.contains j = true ∧
        ∀ u ∈ us, ∃ i es, u = node i es ∧ TokenSet.accessorNodes.contains i = true) ∨
    ∃ j ds u us, cs = node j ds :: u :: us ∧ TokenSet.primaryNodes.contains j = true ∧
      ∀ u' ∈ u :: us, ∃ i es, u' = node i es ∧ TokenSet.accessorNodes.contains i = true := by
  obtain h | h := h
  · simp only [Shape.matches_token_cons, Shape.matches_nodes_cons, Shape.matches_many_cons,
      Shape.matches_row_nil] at h
    obtain ⟨text, -, rfl, j, ds, -, rfl, hj, us, -, rfl, hus, rfl⟩ := h
    exact .inl ⟨text, j, ds, us, by simp, hj, Shape.matches_many_nodes.mp hus⟩
  · simp only [Shape.matches_nodes_cons, Shape.matches_many_cons, Shape.matches_row_nil] at h
    obtain ⟨j, ds, -, rfl, hj, i, es, -, rfl, hi, us, -, rfl, hus, rfl⟩ := h
    refine .inr ⟨j, ds, node i es, us, by simp, hj, ?_⟩
    simpa [hi] using Shape.matches_many_nodes.mp hus

/-! ### First tokens -/

/-- A primary expression has one of its first tokens, but not `new`. -/
theorem first_primary (hk : TokenSet.primaryNodes.contains k = true) (h : (node k cs).Follows)
    (rest : List (Kind × String)) :
    TokenSet.primaryFirst.contains (kindAt (leavesOf cs ++ rest) 0) = true ∧
      kindAt (leavesOf cs ++ rest) 0 ≠ .kwNew := by
  cases primary_cases hk h with
  | literal hj text =>
    simp only [leavesOf_cons, leaves_leaf, List.cons_append, kindAt_cons_zero]
    refine ⟨by simp [TokenSet.primaryFirst, hj], ?_⟩
    exact ne_of_contains hj (by decide)
  | _ => exact ⟨by simp; decide, by simp⟩

/-- So has an operand of an operator, which may begin with `new`. -/
theorem first_operand (hk : TokenSet.operandNodes.contains k = true) (h : (node k cs).Follows)
    (rest : List (Kind × String)) :
    TokenSet.primaryFirst.contains (kindAt (leavesOf cs ++ rest) 0) = true := by
  -- A member expression is what an operand is, or what it stands on.
  have hmember : ∀ {j ds} (hj : TokenSet.memberNodes.contains j = true)
      (hds : (node j ds).Follows) (rest : List (Kind × String)),
      TokenSet.primaryFirst.contains (kindAt (leavesOf ds ++ rest) 0) = true := by
    intro j ds hj hds rest
    simp only [TokenSet.memberNodes, TokenSet.contains_union, TokenSet.contains_single,
      Bool.or_eq_true, beq_iff_eq] at hj
    obtain hj | rfl := hj
    · exact (first_primary hj hds rest).1
    · obtain ⟨hshape, hfollows⟩ := (follows_node _ _).mp hds
      obtain ⟨text, i, es, us, rfl, -⟩ | ⟨i, es, u, us, rfl, hi, -⟩ := memberExpr_cases hshape
      · simp
        decide
      · have hbase := (first_primary hi ((followsAll_cons _ _).mp hfollows).1
          (leavesOf (u :: us) ++ rest)).1
        simpa using hbase
  simp only [TokenSet.operandNodes, TokenSet.contains_union, TokenSet.contains_single,
      Bool.or_eq_true, beq_iff_eq] at hk
  obtain hk | rfl := hk
  · exact hmember hk h rest
  · obtain ⟨hshape, hfollows⟩ := (follows_node _ _).mp h
    simp only [Kind.production, Shape.matches_nodes_cons, Shape.matches_tokens_cons,
      Shape.matches_row_nil] at hshape
    obtain ⟨j, ds, -, rfl, hj, i, text, -, rfl, hi, rfl⟩ := hshape
    have hfirst := hmember hj ((followsAll_cons _ _).mp hfollows).1 ((i, text) :: rest)
    simpa using hfirst

/-- What goes on after something that has begun: a colon never stands alone. -/
def GoesOn (labels : List (Kind × String)) : Prop :=
  labels ≠ [] ∧ (kindAt labels 0 = .colon → kindAt labels 1 = .colon)

/-- How a tree opens. -/
inductive Opens : Tree → Prop
  /-- With an operator or `new`. -/
  | sign {k j : Kind} {text : String} {us : List Tree}
      (hj : TokenSet.prefixOps.contains j = true ∨ j = .kwNew)
      (hus : TokenSet.primaryFirst.contains (kindAt (leavesOf us) 0) = true) :
      Opens (node k (leaf j text :: us))
  /-- With a primary expression, which is all of it. -/
  | primary {k : Kind} {cs : List Tree} (hk : TokenSet.primaryNodes.contains k = true)
      (h : (node k cs).Follows) : Opens (node k cs)
  /-- Like its first part. -/
  | more {k : Kind} {t : Tree} {us : List Tree} (h : t.Opens) (hus : GoesOn (leavesOf us)) :
      Opens (node k (t :: us))

/-- An accessor goes on after what it is an accessor of. -/
private theorem goesOn_access (h : Access k cs) (us : List Tree) :
    GoesOn (leavesOf (node k cs :: us)) := by
  cases h with
  | _ => exact ⟨by simp, by simp⟩

/-- So does an operator. -/
private theorem goesOn_leaf (hk : k ≠ .colon) (text : String) (us : List Tree) :
    GoesOn (leavesOf (leaf k text :: us)) := ⟨by simp, by simp [hk]⟩

/-- A primary expression with its accessors begins as an expression does. -/
theorem opens_member (hk : TokenSet.memberNodes.contains k = true) (h : (node k cs).Follows) :
    (node k cs).Opens := by
  simp only [TokenSet.memberNodes, TokenSet.contains_union, TokenSet.contains_single,
    Bool.or_eq_true, beq_iff_eq] at hk
  obtain hk | rfl := hk
  · exact .primary hk h
  · obtain ⟨hshape, hfollows⟩ := (follows_node _ _).mp h
    obtain ⟨text, j, ds, us, rfl, hj, -⟩ | ⟨j, ds, u, us, rfl, hj, hus⟩ := memberExpr_cases hshape
    · simp only [followsAll_cons] at hfollows
      refine .sign (.inr rfl) ?_
      simpa using (first_primary hj hfollows.2.1 (leavesOf us)).1
    · simp only [followsAll_cons] at hfollows
      obtain ⟨i, es, rfl, hi⟩ := hus u List.mem_cons_self
      exact .more (.primary hj hfollows.1) (goesOn_access (access_cases hi hfollows.2.1) us)

/-- An operand begins as an expression does. -/
theorem opens_operand (hk : TokenSet.operandNodes.contains k = true) (h : (node k cs).Follows) :
    (node k cs).Opens := by
  simp only [TokenSet.operandNodes, TokenSet.contains_union, TokenSet.contains_single,
    Bool.or_eq_true, beq_iff_eq] at hk
  obtain hk | rfl := hk
  · exact opens_member hk h
  · obtain ⟨hshape, hfollows⟩ := (follows_node _ _).mp h
    simp only [Kind.production, Shape.matches_nodes_cons, Shape.matches_tokens_cons,
      Shape.matches_row_nil] at hshape
    obtain ⟨j, ds, -, rfl, hj, i, text, -, rfl, hi, rfl⟩ := hshape
    exact .more (opens_member hj ((followsAll_cons _ _).mp hfollows).1)
      (goesOn_leaf (ne_of_contains hi (by decide)) text [])

/-- A unary expression begins as an expression does. -/
private theorem opens_unary (hk : TokenSet.unaryNodes.contains k = true) (h : (node k cs).Follows) :
    (node k cs).Opens := by
  simp only [TokenSet.unaryNodes, TokenSet.contains_union, TokenSet.contains_single,
    Bool.or_eq_true, beq_iff_eq] at hk
  obtain hk | rfl := hk
  · exact opens_operand hk h
  · obtain ⟨hshape, hfollows⟩ := (follows_node _ _).mp h
    simp only [Kind.production, Shape.matches_tokens_cons, Shape.matches_nodes_cons,
      Shape.matches_row_nil] at hshape
    obtain ⟨i, text, -, rfl, hi, j, ds, -, rfl, hj, rfl⟩ := hshape
    simp only [followsAll_cons] at hfollows
    refine .sign (.inl hi) ?_
    simpa using first_operand hj hfollows.2.1 []

/-- Every expression opens in one of three ways. -/
theorem opens_expr (hk : TokenSet.exprNodes.contains k = true) (h : (node k cs).Follows) :
    (node k cs).Opens := by
  simp only [TokenSet.exprNodes, TokenSet.contains_union, TokenSet.contains_ofList,
    List.contains_iff_mem, List.mem_cons, List.not_mem_nil, or_false, Bool.or_eq_true] at hk
  obtain hk | rfl | rfl := hk
  · exact opens_unary hk h
  all_goals
    obtain ⟨hshape, hfollows⟩ := (follows_node _ _).mp h
    simp only [Kind.production, Shape.matches_nodes_cons, Shape.matches_tokens_cons,
      Shape.matches_token_cons] at hshape
  · obtain ⟨j, ds, -, rfl, hj, i, text, us, rfl, hi, -⟩ := hshape
    exact .more (opens_unary hj ((followsAll_cons _ _).mp hfollows).1)
      (goesOn_leaf (ne_of_contains hi (by decide)) text us)
  · obtain ⟨j, ds, -, rfl, hj, text, us, rfl, -⟩ := hshape
    exact .more (opens_unary hj ((followsAll_cons _ _).mp hfollows).1)
      (goesOn_leaf (by decide) text us)

namespace Opens

variable {t : Tree}

/-- What opens like an expression has a first token of one. -/
theorem first (h : t.Opens) (rest : List (Kind × String)) :
    TokenSet.exprFirst.contains (kindAt (t.leaves ++ rest) 0) = true := by
  induction h generalizing rest with
  | @sign k j text us hj hus =>
    simp only [leaves_node, leavesOf_cons, leaves_leaf, List.cons_append, kindAt_cons_zero]
    obtain hj | rfl := hj
    · simp [TokenSet.exprFirst, hj]
    · decide
  | primary hk h => simp [TokenSet.exprFirst, (first_primary hk h rest).1]
  | @more k t us h hus ih => simpa using ih (leavesOf us ++ rest)

/-- A colon as the second token comes with another one, if that holds for what follows. -/
theorem second_colon (h : t.Opens) (rest : List (Kind × String))
    (hrest : kindAt rest 0 = .colon → kindAt rest 1 = .colon)
    (hcolon : kindAt (t.leaves ++ rest) 1 = .colon) : kindAt (t.leaves ++ rest) 2 = .colon := by
  -- Induction on how the tree opens: a sign, a primary expression, or something after a head.
  induction h generalizing rest with
  | @sign k j text us hj hus =>
    -- An operator is one token, and no expression starts with a colon.
    have hlt := lt_length_of_kindAt (ne_of_contains hus (by decide))
    simp only [leaves_node, leavesOf_cons, leaves_leaf, List.cons_append, List.nil_append,
      kindAt_cons_succ, kindAt_append hlt] at hcolon
    exact absurd hcolon (ne_of_contains hus (by decide))
  -- A primary expression is looked at kind by kind; most show another second token.
  | @primary k cs hk h =>
    have hfollows := ((follows_node k cs).mp h).2
    have hexpr {j : Kind} {ds : List Tree} (hj : TokenSet.exprNodes.contains j = true)
        (hds : (node j ds).Follows) (rest : List (Kind × String)) :
        kindAt (leavesOf ds ++ rest) 0 ≠ .colon :=
      ne_of_contains ((opens_expr hj hds).first rest) (by decide)
    rw [leaves_node] at hcolon ⊢
    cases primary_cases hk h with
    | name name => simpa using hrest (by simpa using hcolon)
    | ref hash name => simp at hcolon
    | literal hj text => simpa using hrest (by simpa using hcolon)
    | record opener closer hes =>
      obtain rfl | ⟨j, ds, ts, rfl, hj⟩ := Shape.listed_cases hes
      · simp at hcolon
      · obtain rfl : j = .recordProp := by simpa using hj
        simp only [followsAll_cons, List.cons_append] at hfollows
        obtain ⟨i, name, _, _, _, rfl, hi, -⟩ :=
          recordProp_cases ((follows_node _ _).mp hfollows.2.1).1
        exact absurd (by simpa using hcolon) (ne_of_contains hi (j := .colon) (by decide))
    | namedRecord name opener closer hes => simp at hcolon
    | array opener closer hes =>
      obtain rfl | ⟨j, ds, ts, rfl, hj⟩ := Shape.listed_cases hes
      · simp at hcolon
      · simp at hcolon hfollows
        exact absurd hcolon (hexpr hj hfollows.1 _)
    | namedArray name opener closer hes => simp at hcolon
    -- Parameters of a function literal begin with a name and not with a colon.
    | fn opener closer hes hus =>
      obtain rfl | ⟨j, ds, ts, rfl, hj⟩ := Shape.listed_cases hes
      · simp at hcolon
      · obtain rfl : j = .param := by simpa using hj
        have hparams := ((follows_node _ _).mp ((followsAll_cons _ _).mp hfollows).1).2
        simp only [followsAll_cons, List.cons_append] at hparams
        obtain ⟨name, _, _, rfl⟩ := param_cases ((follows_node _ _).mp hparams.2.1).1
        simp at hcolon
    | paren opener closer hj =>
      simp at hcolon hfollows
      exact absurd hcolon (hexpr hj hfollows _)
  | @more k t us h hus ih =>
    -- The colon may follow the head, but then it is the first of the two of a static access.
    obtain ⟨hne, hcolons⟩ := hus
    rw [leaves_node, leavesOf_cons, List.append_assoc] at hcolon ⊢
    refine ih _ ?_ hcolon
    intro hfirst
    rw [kindAt_append (List.length_pos_iff.mpr hne)] at hfirst
    have hsecond := hcolons hfirst
    have hlt := lt_length_of_kindAt (by rw [hsecond]; decide)
    rw [kindAt_append hlt, hsecond]

/-- Where braces open an expression, a property follows. -/
theorem startsRecord (h : t.Opens) {rest : List (Kind × String)}
    (hcurly : kindAt (t.leaves ++ rest) 0 = .lCurly) (hempty : t.opensEmptyRecord = false) :
    ScriptTree.startsRecord (t.leaves ++ rest) = true := by
  -- Down the left edge of the expression to the literal that the braces belong to.
  induction h generalizing rest with
  -- A sign is no brace.
  | @sign k j text us hj hus =>
    simp only [leaves_node, leavesOf_cons, leaves_leaf, List.cons_append, kindAt_cons_zero]
      at hcurly
    obtain hj | hj := hj
    · exact absurd hcurly (ne_of_contains hj (by decide))
    · rw [hcurly] at hj
      cases hj
  | @primary k cs hk h =>
    have hfollows := ((follows_node k cs).mp h).2
    rw [leaves_node] at hcurly ⊢
    cases primary_cases hk h with
    | record opener closer hes =>
      obtain rfl | ⟨j, ds, ts, rfl, hj⟩ := Shape.listed_cases hes
      · simp [opensEmptyRecord, kind] at hempty
      · obtain rfl : j = .recordProp := by simpa using hj
        simp only [followsAll_cons, List.cons_append] at hfollows
        obtain ⟨hshape, hparts⟩ := (follows_node _ _).mp hfollows.2.1
        obtain ⟨i, name, colon, l, ls, rfl, hi, hl⟩ := recordProp_cases hshape
        simp only [followsAll_cons] at hparts
        have hvalue := (opens_expr hl hparts.2.2.1).first
          (leavesOf (ts ++ [leaf .rCurly closer]) ++ rest)
        have hcolon := ne_of_contains hvalue (j := .colon) (by decide)
        simpa [ScriptTree.startsRecord, hi] using hcolon
    | literal hj text =>
      simp at hcurly
      exact absurd hcurly (ne_of_contains hj (by decide))
    | _ => simp at hcurly
  -- The head opens the tree and so carries the brace.
  | @more k t us h hus ih =>
    rw [leaves_node, leavesOf_cons, List.append_assoc] at hcurly ⊢
    exact ih hcurly (by simp [opensEmptyRecord, headOpensEmptyRecord] at hempty; exact hempty.2)

end Opens

/-! ### Statements -/

/-- Nodes of a set, each in its place. -/
def InPlace (set : TokenSet) (ts : List Tree) : Prop :=
  ∀ t ∈ ts, t.isSettled = true ∧ ∃ k cs, t = node k cs ∧ set.contains k = true

/-- A statement that is settled and owns its semicolon has it. -/
theorem isTerminated_of_isSettled (hk : TokenSet.ownerNodes.contains k = true)
    (h : (node k cs).isSettled = true) : (node k cs).isTerminated = true := by
  simp only [isSettled, hk, Bool.not_true, Bool.false_or, Bool.and_eq_true] at h
  exact h.1

/-- Between settled trees there is no semicolon. -/
theorem inPlace_of_many (h : (Shape.many (.orSemicolon set)).Matches cs)
    (hsettled : ∀ t ∈ cs, t.isSettled = true) : InPlace set cs := by
  intro t ht
  refine ⟨hsettled t ht, ?_⟩
  have hfits := Shape.matches_many_one.mp h t ht
  cases t with
  | leaf j text =>
    obtain rfl : j = .semiColon := by simpa using hfits
    cases hsettled _ ht
  | node j ds => exact ⟨j, ds, rfl, hfits⟩

/-- The children of a block with its semicolon. -/
theorem block_cases (h : (Kind.production .block).Matches cs)
    (harranged : Kind.arranges .block cs = true)
    (hterminated : (node .block cs).isTerminated = true) :
    ∃ opener ss closer semi, ss ≠ [] ∧ InPlace .stmtNodes ss ∧
      cs = leaf .lCurly opener :: (ss ++ [leaf .rCurly closer, leaf .semiColon semi]) := by
  simp only [Kind.production, Shape.terminator, Shape.matches_token_cons, Shape.matches_many_cons,
    Shape.matches_nodes_cons, Shape.matches_opt_cons, Shape.matches_row_nil] at h
  obtain ⟨opener, -, rfl, us, -, rfl, hus, j, ds, -, rfl, hj, vs, -, rfl, hvs, closer, ws, rfl,
    rfl | ⟨semi, -, rfl, rfl⟩⟩ := h
  -- Without the semicolon the brace is the last child.
  · have hlist : leaf .lCurly opener :: (us ++ node j ds :: (vs ++ [leaf .rCurly closer])) =
        (leaf .lCurly opener :: (us ++ node j ds :: vs)) ++ [leaf .rCurly closer] := by simp
    rw [hlist, isTerminated_append] at hterminated
    cases hterminated
  -- With it the statements of the block are what stands between the braces.
  · have hlist : leaf .lCurly opener :: (us ++ node j ds :: (vs ++ [leaf .rCurly closer,
        leaf .semiColon semi])) = (leaf .lCurly opener :: ((us ++ node j ds :: vs) ++
          [leaf .rCurly closer])) ++ [leaf .semiColon semi] := by simp
    rw [hlist, Kind.arranges, List.dropLast_concat, List.all_cons, List.all_append,
      Bool.and_eq_true, Bool.and_eq_true, List.all_eq_true] at harranged
    have hbody : (Shape.many (.orSemicolon .stmtNodes)).Matches (us ++ node j ds :: vs) := by
      rw [Shape.orSemicolon, Shape.matches_many_one] at hus hvs ⊢
      intro t ht
      obtain ht | ht := List.mem_append.mp ht
      · exact hus t ht
      · obtain rfl | ht := List.mem_cons.mp ht
        · exact hj
        · exact hvs t ht
    exact ⟨opener, us ++ node j ds :: vs, closer, semi, by simp,
      inPlace_of_many hbody harranged.2.1, by simp⟩

/-- The children of a body. -/
theorem body_cases (h : (Kind.production .logicBlock).Matches cs)
    (harranged : Kind.arranges .logicBlock cs = true) :
    ∃ opener ss closer, InPlace .stmtNodes ss ∧
      cs = leaf .lCurly opener :: (ss ++ [leaf .rCurly closer]) := by
  simp only [Kind.production, Shape.matches_token_cons, Shape.matches_many_cons,
    Shape.matches_row_nil] at h
  obtain ⟨opener, -, rfl, ss, -, rfl, hss, closer, -, rfl, rfl⟩ := h
  refine ⟨opener, ss, closer, inPlace_of_many hss ?_, rfl⟩
  simp [Kind.arranges] at harranged
  exact harranged.2.1

/-- A statement has one of its first tokens. -/
theorem first_statement (hk : TokenSet.stmtNodes.contains k = true) (h : (node k cs).Follows)
    (rest : List (Kind × String)) :
    TokenSet.stmtFirst.contains (kindAt (leavesOf cs ++ rest) 0) = true := by
  obtain ⟨hshape, hfollows⟩ := (follows_node k cs).mp h
  simp only [TokenSet.stmtNodes, TokenSet.contains_ofList, List.contains_iff_mem, List.mem_cons,
    List.not_mem_nil, or_false] at hk
  -- All statements but the one that is an expression begin with a token of their own.
  obtain rfl | rfl | rfl | rfl | rfl | rfl | rfl := hk
  all_goals
    simp only [Kind.production, Shape.expr, Shape.matches_token_cons, Shape.matches_nodes_cons]
      at hshape
  case inr.inr.inr.inr.inr.inl =>
    obtain ⟨j, ds, us, rfl, hj, -⟩ := hshape
    simp only [followsAll_cons] at hfollows
    have hfirst := (opens_expr hj hfollows.1).first (leavesOf us ++ rest)
    rw [leavesOf_cons, List.append_assoc, TokenSet.stmtFirst, TokenSet.contains_union, hfirst,
      Bool.or_true]
  all_goals
    obtain ⟨text, us, rfl, -⟩ := hshape
    simp
    decide

/-- A colon as the second token of a settled statement comes with another one. -/
theorem second_statement (hk : TokenSet.stmtNodes.contains k = true) (h : (node k cs).Follows)
    (harranged : k.arranges cs = true) (hsettled : (node k cs).isSettled = true)
    (hcolon : kindAt (leavesOf cs ++ rest) 1 = .colon) :
    kindAt (leavesOf cs ++ rest) 2 = .colon := by
  obtain ⟨hshape, hfollows⟩ := (follows_node k cs).mp h
  have howner : TokenSet.ownerNodes.contains k = true := by simp [TokenSet.ownerNodes, hk]
  have hterminated := isTerminated_of_isSettled howner hsettled
  simp only [TokenSet.stmtNodes, TokenSet.contains_ofList, List.contains_iff_mem, List.mem_cons,
    List.not_mem_nil, or_false] at hk
  obtain rfl | rfl | rfl | rfl | rfl | rfl | rfl := hk
  · obtain ⟨opener, ss, closer, semi, hne, hss, rfl⟩ := block_cases hshape harranged hterminated
    -- A settled block has a statement after its opener, and no statement begins with a colon.
    obtain ⟨s, ss, rfl⟩ := List.exists_cons_of_ne_nil hne
    obtain ⟨-, j, ds, rfl, hj⟩ := hss s List.mem_cons_self
    simp only [followsAll_cons, List.cons_append] at hfollows
    have hfirst := first_statement hj hfollows.2.1
      (leavesOf (ss ++ [leaf .rCurly closer, leaf .semiColon semi]) ++ rest)
    exact absurd (by simpa using hcolon) (ne_of_contains hfirst (j := .colon) (by decide))
  all_goals
    simp only [Kind.production, Shape.expr, Shape.terminator, Shape.matches_token_cons,
      Shape.matches_nodes_cons, Shape.matches_opt_cons, Shape.matches_row_nil] at hshape
  -- The statements with keywords show a parenthesis or a name as their second token.
  · obtain ⟨text, -, rfl, opener, us, rfl, -⟩ := hshape
    simp at hcolon
  · obtain ⟨text, -, rfl, opener, us, rfl, -⟩ := hshape
    simp at hcolon
  · obtain ⟨text, -, rfl, opener, us, rfl, -⟩ := hshape
    simp at hcolon
  · obtain ⟨text, -, rfl, opener, us, rfl, -⟩ := hshape
    simp at hcolon
  -- An expression statement without a semicolon is not terminated; one with it shows the expression
  -- and then the semicolon.
  · obtain ⟨j, ds, us, rfl, hj, rfl | ⟨semi, -, rfl, rfl⟩⟩ := hshape
    · simp [isTerminated, children, isDropped] at hterminated
    · simp only [followsAll_cons] at hfollows
      have hsecond := (opens_expr hj hfollows.1).second_colon ((.semiColon, semi) :: rest) (by simp)
      simpa using hsecond (by simpa using hcolon)
  -- After `return` comes an expression, which does not begin with a colon.
  · obtain ⟨text, -, rfl, j, ds, us, rfl, hj, -⟩ := hshape
    simp only [followsAll_cons] at hfollows
    have hfirst := (opens_expr hj hfollows.2.1).first (leavesOf us ++ rest)
    exact absurd (by simpa using hcolon) (ne_of_contains hfirst (j := .colon) (by decide))

end Tree

end ScriptTree
