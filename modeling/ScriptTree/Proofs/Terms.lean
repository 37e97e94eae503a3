import ScriptTree.Proofs.Phrases

/-!
# Expressions are read back

Expressions of canonical trees are read back, from primary expressions over accessors and
operators up to whole expressions.  What follows an expression decides where it ends: a rule goes
on as long as it can, so nothing may follow that would be read as a further part.

## Key results

- `Grammar.builds_primary`: the lookahead tells literals, names and functions apart
- `Grammar.builds_target`: accessors are read up to what follows
- `Grammar.builds_expr`: chains of operators nest to the right
-/

namespace ScriptTree

namespace Grammar

open ScriptTree.Tree
open Step (isAt isAtAny)

variable {k : Kind} {cs ts us : List Tree} {rest : List (Kind × String)}

/-! ## Primary expressions -/

/-- The children of a node for `name : expr` are read back by its rule. -/
theorem builds_recordProp (h : Prepared .recordProp cs)
    (hrest : TokenSet.exprFollow.contains (kindAt rest 0) = true) :
    Rule.recordProp.step.Builds [node .recordProp cs] rest := by
  obtain ⟨i, name, colon, j, ds, rfl, -, hj⟩ := recordProp_cases h.shape
  have hvalue := h.readable (node j ds) (by simp) .expr rest ⟨hj, hrest⟩
  exact .rule leads_recordProp (.node (.cons .any (.cons .token (.cons hvalue .nil))))

/-- Parameters open a function and no expression. -/
private theorem startsFnLiteral_fn {opener closer : String}
    (h : (Shape.listed (.node .param)).Matches ts) (hfollows : FollowsAll ts) :
    startsFnLiteral ((.lParen, opener) :: (leavesOf ts ++ (.rParen, closer) :: rest)) = true := by
  obtain rfl | ⟨j, ds, us, rfl, hj⟩ := Shape.listed_cases h
  · simp [startsFnLiteral]
  · obtain rfl : j = .param := by simpa using hj
    rw [followsAll_cons] at hfollows
    obtain ⟨hshape, hparts⟩ := (follows_node _ _).mp hfollows.1
    obtain ⟨name, colon, es, rfl⟩ := param_cases hshape
    simp only [followsAll_cons] at hparts
    have hfirst := first_types hparts.2.2.1 (leavesOf us ++ (.rParen, closer) :: rest)
    simp [startsFnLiteral, hfirst]

/-- An expression in parentheses opens no function. -/
private theorem startsFnLiteral_paren {opener closer : String}
    (hk : TokenSet.exprNodes.contains k = true) (h : (node k cs).Follows) :
    startsFnLiteral ((.lParen, opener) :: (leavesOf cs ++ (.rParen, closer) :: rest)) = false := by
  have hopens := opens_expr hk h
  have hfirst := ne_of_contains (hopens.first ((.rParen, closer) :: rest)) (j := .rParen)
    (by decide)
  have hcolon := hopens.second_colon ((.rParen, closer) :: rest) (by simp)
  rw [leaves_node] at hfirst hcolon
  by_cases hsecond : kindAt (leavesOf cs ++ (.rParen, closer) :: rest) 1 = .colon
  · simp [startsFnLiteral, hfirst, hcolon hsecond]
  · simp [startsFnLiteral, hfirst, hsecond]

/-- Each primary expression is read back: the lookahead tells literals, names and functions
    apart. -/
theorem builds_primary (hk : TokenSet.primaryNodes.contains k = true) (h : Prepared k cs)
    (hcurly : kindAt rest 0 ≠ .lCurly)
    (hbracket : kindAt rest 0 = .lBracket → (node k cs).isScalarName = false) :
    Rule.primary.step.Builds [node k cs] rest := by
  have hcases := primary_cases hk h.node_follows
  obtain ⟨-, harranged, hfollows, -, hread⟩ := h
  refine .rule leads_primary ?_
  -- One case for each primary expression: the lookaheads that fail, and then the one that holds.
  cases hcases with
  | name name =>
    refine .taken (by simp) (.passed ?_ (.passed (by simpa using hcurly) (.node .token)))
    -- A bracket after the name of an array type would make it the type of an array.
    by_cases hnext : kindAt rest 0 = .lBracket
    · have hscalar := hbracket hnext
      rw [isScalarName] at hscalar
      simpa [startsArray, hnext] using hscalar
    · simp [startsArray, hnext]
  | ref hash name =>
    exact .passed (by simp [isAt]) (.taken (by simp) (.node (.cons .token (.cons .token .nil))))
  | literal hj text =>
    have hne := fun j hno => ne_of_contains hj (j := j) hno
    refine .passed ?_ (.passed ?_ (.passed ?_ (.passed ?_ (.passed ?_ (.node (.tokens hj))))))
    all_goals
      simp only [isAt, leavesOf_cons, leaves_node, leaves_leaf, List.append_assoc,
        List.cons_append, kindAt_cons_zero, beq_eq_false_iff_ne]
      exact hne _ (by decide)
  | record opener closer hes =>
    simp only [followsAll_cons, followsAll_append] at hfollows
    exact .passed (by simp [isAt]) (.passed (by simp [isAt]) (.taken (by simp)
      (.node (builds_delimited .record hes hfollows.2.1 fun t ht => hread t (by simp [ht])))))
  | namedRecord name opener closer hes =>
    simp only [followsAll_cons, followsAll_append] at hfollows
    exact .taken (by simp) (.passed (by simp [startsArray]) (.taken (by simp) (.node (.cons .token
      (.last (builds_delimited .record hes hfollows.2.2.1 fun t ht => hread t (by simp [ht])))))))
  | array opener closer hes =>
    simp only [followsAll_cons, followsAll_append] at hfollows
    exact .passed (by simp [isAt]) (.passed (by simp [isAt]) (.passed (by simp [isAt])
      (.taken (by simp)
        (.node (builds_delimited .array hes hfollows.2.1 fun t ht => hread t (by simp [ht]))))))
  | namedArray name opener closer hes =>
    simp only [followsAll_cons, followsAll_append] at hfollows
    rw [Kind.arranges] at harranged
    refine .taken (by simp) (.taken ?_ (.node (.cons .token
      (.last (builds_delimited .array hes hfollows.2.2.1 fun t ht => hread t (by simp [ht]))))))
    simpa [startsArray] using harranged
  | fn opener closer hes hus =>
    rename_i es us
    have hparams := ((follows_node _ _).mp ((followsAll_cons _ _).mp hfollows).1).2
    simp only [followsAll_cons, followsAll_append] at hparams
    -- The parameters show within four tokens that this is no expression in parentheses.
    have hstarts : startsFnLiteral ((.lParen, opener) :: (leavesOf es ++ (.rParen, closer) ::
        (leavesOf us ++ rest))) = true := startsFnLiteral_fn hes hparams.2.1
    have htail : Rule.fnTail.step.Builds
        (node .paramList (leaf .lParen opener :: (es ++ [leaf .rParen closer])) :: us) rest :=
      builds_fnTail (by simpa [Kind.production] using hus) hfollows hread
    refine .passed (by simp [isAt]) (.passed (by simp [isAt]) (.passed (by simp [isAt])
      (.passed (by simp [isAt]) (.taken (by simp) (.taken ?_ (.node htail))))))
    simpa using hstarts
  -- What stands in parentheses does not begin like parameters.
  | paren opener closer hj =>
    rename_i j ds
    simp only [followsAll_cons] at hfollows
    have hstarts : startsFnLiteral ((.lParen, opener) :: (leavesOf ds ++ (.rParen, closer) ::
        rest)) = false := startsFnLiteral_paren hj hfollows.2.1
    have hinner := hread (node j ds) (by simp) .expr ((.rParen, closer) :: rest)
      ⟨hj, by simp; decide⟩
    refine .passed (by simp [isAt]) (.passed (by simp [isAt]) (.passed (by simp [isAt])
      (.passed (by simp [isAt]) (.taken (by simp) (.passed ?_
        (.node (.cons .token (.cons hinner (.cons .token .nil)))))))))
    simpa using hstarts

/-! ## Accessors -/

/-- What may follow an operand is no accessor. -/
private theorem accessorAt_eq_none (hrest : TokenSet.memberFollow.contains (kindAt rest 0) = true) :
    accessorAt rest = none := by
  have hne := fun j hj => ne_of_contains hrest (j := j) hj
  unfold accessorAt
  split
  case h_6 => rfl
  all_goals
    next hk => exact absurd hk (hne _ (by decide))

/-- An accessor is read if the tokens ahead show that it comes. -/
private theorem builds_accessor (b : Accessor) (hat : accessorAt (leavesOf cs ++ rest) = some b)
    (h : (accessorStep (Rule.Parses false) b).Builds [node k cs] rest) :
    Role.accessor.step.Builds [node k cs] rest :=
  fun frame => ⟨b, by simpa using hat, h frame⟩

/-- Each accessor is read back from its own leaves, whatever follows. -/
theorem builds_access (hk : TokenSet.accessorNodes.contains k = true) (h : Prepared k cs) :
    Role.accessor.step.Builds [node k cs] rest := by
  have hcases := access_cases hk h.node_follows
  obtain ⟨-, -, hfollows, -, hread⟩ := h
  -- Each accessor shows itself by its first token, or by two colons.
  cases hcases with
  | field hj dot name =>
    exact builds_accessor .field (by simp [accessorAt])
      (.node (.cons .token (.cons (.tokens hj) .nil)))
  | static hj colon colon' name =>
    exact builds_accessor .static (by simp [accessorAt])
      (.node (.cons .token (.cons .token (.cons (.tokens hj) .nil))))
  | index opener closer hj =>
    rename_i j ds
    have hinner : Rule.expr.step.Builds [node j ds] ((.rBracket, closer) :: rest) :=
      hread (node j ds) (by simp) .expr _ ⟨hj, by simp; decide⟩
    exact builds_accessor .index (by simp [accessorAt])
      (.node (.cons .token (.cons hinner (.cons .token .nil))))
  | arguments opener closer hes =>
    simp only [followsAll_cons, followsAll_append] at hfollows
    exact builds_accessor .arguments (by simp [accessorAt])
      (.node (builds_delimited .callArgs hes hfollows.2.1 fun t ht => hread t (by simp [ht])))
  | nonNull text => exact builds_accessor .nonNull (by simp [accessorAt]) (.node .token)

/-- Nodes that are accessors and are read as such. -/
def Accesses (us : List Tree) : Prop :=
  ∀ u ∈ us, u.Readable ∧ ∃ k cs, u = node k cs ∧ TokenSet.accessorNodes.contains k = true

/-- One accessor and those after it. -/
private theorem step_accessors {b : Accessor} {x y z : Reading} (hat : accessorAt x.input = some b)
    (hfirst : accessorStep (Rule.Parses false) b x y) (hmore : (Rule.accessors true).step y z) :
    (Rule.accessors true).step x z ∧
      (Rule.accessors false).step x ⟨z.input, [.node .memberExpr z.frame]⟩ := by
  constructor
  · refine (Rule.step_iff leads_accessors).mpr ?_
    simp only [hat, if_true]
    exact ⟨y, hfirst, z, hmore, rfl⟩
  · refine (Rule.step_iff leads_accessors).mpr ?_
    simp only [hat, Bool.false_eq_true, if_false]
    exact ⟨z, ⟨y, hfirst, z, hmore, rfl⟩, rfl⟩

/-- The loop reads no accessor where what follows is none. -/
private theorem idle_accessors {wrapped : Bool}
    (hrest : TokenSet.memberFollow.contains (kindAt rest 0) = true) :
    (Rule.accessors wrapped).step.Builds [] rest := by
  intro frame
  refine (Rule.step_iff leads_accessors).mpr ?_
  simp [accessorAt_eq_none hrest]

/-- The children of a node for `accessor*` are read back by its rule. -/
private theorem builds_accessors (h : Accesses us)
    (hrest : TokenSet.memberFollow.contains (kindAt rest 0) = true) :
    (Rule.accessors true).step.Builds us rest := by
  induction us with
  | nil => exact idle_accessors hrest
  | cons u us ih =>
    intro frame
    obtain ⟨hread, k, cs, rfl, hk⟩ := h u List.mem_cons_self
    have hus := ih fun u' hu' => h u' (List.mem_cons_of_mem _ hu')
    obtain ⟨b, hat, hfirst⟩ := hread .accessor (leavesOf us ++ rest) hk frame
    have hmore := hus (frame ++ [node k cs])
    simpa using (step_accessors hat hfirst hmore).1

/-- The first accessor makes the node of all. -/
private theorem turns_accessors {t u : Tree} (h : Accesses (u :: us))
    (hrest : TokenSet.memberFollow.contains (kindAt rest 0) = true) :
    (Rule.accessors false).step.Turns t (u :: us) rest (node .memberExpr (t :: u :: us)) := by
  refine ⟨by simp, ?_⟩
  obtain ⟨hread, k, cs, rfl, hk⟩ := h u List.mem_cons_self
  obtain ⟨b, hat, hfirst⟩ := hread .accessor (leavesOf us ++ rest) hk [t]
  have hmore := builds_accessors (fun u' hu' => h u' (List.mem_cons_of_mem _ hu')) hrest
    ([t] ++ [node k cs])
  simpa using (step_accessors hat hfirst hmore).2

/-! ## Operands -/

/-- An accessor opens with no brace, and only an index opens with a bracket. -/
private theorem first_access (h : Access k cs) (rest : List (Kind × String)) :
    kindAt (leavesOf cs ++ rest) 0 ≠ .lCurly ∧
      (kindAt (leavesOf cs ++ rest) 0 = .lBracket → k = .indexAccess) := by
  cases h with
  | _ => simp

/-- What follows the base of accessors is not taken for a part of it, as no index follows a scalar
    name. -/
private theorem fits_base {j : Kind} {ds : List Tree} (hj : TokenSet.primaryNodes.contains j = true)
    (h : Accesses us) (hfollows : FollowsAll us)
    (harranged : ∀ u ∈ us.head?, (node j ds).isScalarName = false ∨ u.kind ≠ .indexAccess)
    (hrest : TokenSet.memberFollow.contains (kindAt rest 0) = true) :
    Role.primary.Fits j ds (leavesOf us ++ rest) := by
  refine ⟨hj, ?_⟩
  cases us with
  | nil =>
    refine ⟨ne_of_contains hrest (by decide), fun hnext => ?_⟩
    exact absurd hnext (ne_of_contains hrest (by decide))
  | cons u us =>
    obtain ⟨-, k, cs, rfl, hk⟩ := h u List.mem_cons_self
    obtain ⟨hcurly, hbracket⟩ := first_access
      (access_cases hk ((followsAll_cons _ _).mp hfollows).1) (leavesOf us ++ rest)
    rw [leavesOf_cons, leaves_node, List.append_assoc]
    refine ⟨hcurly, fun hnext => ?_⟩
    have hindex := harranged _ rfl
    rw [hbracket hnext] at hindex
    simpa [Tree.kind] using hindex

/-- A primary expression with its accessors is read back up to what follows. -/
theorem builds_target (hk : TokenSet.memberNodes.contains k = true) (h : Prepared k cs)
    (hrest : TokenSet.memberFollow.contains (kindAt rest 0) = true) :
    (memberStep (Rule.Parses false)).Builds [node k cs] rest := by
  simp only [TokenSet.memberNodes, TokenSet.contains_union, TokenSet.contains_single,
    Bool.or_eq_true, beq_iff_eq] at hk
  obtain hk | rfl := hk
  · have hbase := builds_primary hk h (ne_of_contains hrest (by decide))
      fun hnext => absurd hnext (ne_of_contains hrest (by decide))
    -- A primary expression never begins with `new`, so the other branch is taken.
    have hnew := (first_primary hk h.node_follows rest).2
    refine Step.Fills.group (.passed ?_ (Step.Turns.fills hbase (.idle (idle_accessors hrest))))
    simpa [isAt] using hnew
  · obtain ⟨hshape, harranged, hfollows, -, hread⟩ := h
    -- Behind `new` a primary expression and accessors; else at least one accessor.
    obtain ⟨text, j, ds, us, rfl, hj, hus⟩ | ⟨j, ds, u, us, rfl, hj, hus⟩ := memberExpr_cases hshape
    all_goals
      simp only [followsAll_cons] at hfollows
      simp only [Kind.arranges, List.tail_cons, List.zip_cons_cons, List.all_cons] at harranged
    · have haccesses : Accesses us := fun u hu => ⟨hread u (by simp [hu]), hus u hu⟩
      have hbase := hread (node j ds) (by simp) .primary _
        (fits_base hj haccesses hfollows.2.2 (by cases us <;> simp_all) hrest)
      exact Step.Fills.group (.taken (by simp) (Step.Builds.fills
        (.node (.cons .token (.cons hbase (.last (builds_accessors haccesses hrest)))))))
    · have haccesses : Accesses (u :: us) := fun v hv =>
        ⟨hread v (List.mem_cons_of_mem _ hv), hus v hv⟩
      have hbase := hread (node j ds) (by simp) .primary _
        (fits_base hj haccesses (by simpa using hfollows.2) (by simp_all) hrest)
      have hnew := (first_primary hj hfollows.1 (leavesOf (u :: us) ++ rest)).2
      have haccessors := turns_accessors (t := node j ds) haccesses hrest
      refine Step.Fills.group (.passed ?_ (Step.Turns.fills hbase haccessors))
      simpa [isAt] using hnew

/-! ## Operators -/

/-- The children of a node for `member (++ | --)?` are read back by its rule. -/
theorem builds_operand (hk : TokenSet.operandNodes.contains k = true) (h : Prepared k cs)
    (hrest : TokenSet.unaryFollow.contains (kindAt rest 0) = true) :
    Rule.operand.step.Builds [node k cs] rest := by
  refine .rule leads_operand ?_
  simp only [TokenSet.operandNodes, TokenSet.contains_union, TokenSet.contains_single,
    Bool.or_eq_true, beq_iff_eq] at hk
  obtain hk | rfl := hk
  · have htarget : (memberStep (Rule.Parses false)).Builds [node k cs] rest :=
      builds_target hk h (by simp [TokenSet.memberFollow, hrest])
    -- What follows is not a postfix operator, so the operand ends with its target.
    have hpostfix : TokenSet.postfixOps.contains (kindAt rest 0) = false :=
      TokenSet.not_contains_of_contains hrest (by decide)
    exact Step.Fills.group (Step.Turns.fills htarget (.idle (.passed hpostfix .nil)))
  -- A postfix operator wraps the target that was read.
  · obtain ⟨hshape, -, -, -, hread⟩ := h
    simp only [Kind.production, Shape.matches_nodes_cons, Shape.matches_tokens_cons,
      Shape.matches_row_nil] at hshape
    obtain ⟨j, ds, -, rfl, hj, i, text, -, rfl, hi, rfl⟩ := hshape
    have htarget : (memberStep (Rule.Parses false)).Builds [node j ds]
        (leavesOf [leaf i text] ++ rest) :=
      hread (node j ds) (by simp) .target _ ⟨hj, by simp [TokenSet.memberFollow, hi]⟩
    refine Step.Fills.group (Step.Turns.fills htarget (.taken ?_ (.wrap ?_)))
    · simpa [isAtAny] using hi
    · exact .cons (.tokens hi) .nil

/-- The children of a node for `(! | + | -)? operand` are read back by its rule. -/
theorem builds_unary (hk : TokenSet.unaryNodes.contains k = true) (h : Prepared k cs)
    (hrest : TokenSet.unaryFollow.contains (kindAt rest 0) = true) :
    Role.unary.step.Builds [node k cs] rest := by
  simp only [TokenSet.unaryNodes, TokenSet.contains_union, TokenSet.contains_single,
    Bool.or_eq_true, beq_iff_eq] at hk
  -- An operand does not begin with an operator.
  have houtside : ∀ {j ds} (hj : TokenSet.operandNodes.contains j = true)
      (hds : (node j ds).Follows), isAtAny .prefixOps (leavesOf [node j ds] ++ rest) = false := by
    intro j ds hj hds
    rw [leavesOf_cons, leaves_node, leavesOf_nil, List.append_nil]
    exact TokenSet.not_contains_of_contains (first_operand hj hds rest) (by decide)
  obtain hk | rfl := hk
  · exact .passed (houtside hk h.node_follows) (builds_operand hk h hrest)
  -- The prefix operator is taken, and the second test of it, in the loop, holds as well.
  · obtain ⟨hshape, -, hfollows, -, hread⟩ := h
    simp only [Kind.production, Shape.matches_tokens_cons, Shape.matches_nodes_cons,
      Shape.matches_row_nil] at hshape
    obtain ⟨i, text, -, rfl, hi, j, ds, -, rfl, hj, rfl⟩ := hshape
    simp only [followsAll_cons] at hfollows
    have hoperand : Rule.operand.step.Builds [node j ds] rest :=
      hread (node j ds) (by simp) .operand rest ⟨hj, hrest⟩
    have hfirst := first_operand hj hfollows.2.1 rest
    have hnext : (Rule.prefixes 1).step.Builds [node j ds] rest :=
      .rule leads_prefixes (.passed (houtside hj hfollows.2.1)
        (.guarded (by simpa [isAtAny] using hfirst) hoperand))
    refine .taken (by simpa [isAtAny] using hi) (.rule leads_prefixes (.taken ?_ ?_))
    · simpa [isAtAny] using hi
    · exact .guarded (by simp) (.node (.cons (.tokens hi) (.cons hnext .nil)))

/-- What stands after an operator is an expression of its own. -/
private theorem builds_rest (h : Rule.expr.step.Builds ts rest) :
    (Step.guarded (isAtAny .exprFirst) (Step.group Rule.chain.step)).Builds ts rest :=
  fun frame => (Rule.step_iff leads_expr).mp (h frame)

/-- A chain is read back into a frame of its own, operator by operator. -/
private theorem fills_operators (hk : TokenSet.exprNodes.contains k = true) (h : Prepared k cs)
    (hrest : TokenSet.exprFollow.contains (kindAt rest 0) = true) :
    Rule.chain.step.Fills [node k cs] rest := by
  refine .rule leads_chain ?_
  simp only [TokenSet.exprNodes, TokenSet.contains_union, TokenSet.contains_ofList,
    List.contains_iff_mem, List.mem_cons, List.not_mem_nil, or_false, Bool.or_eq_true] at hk
  obtain hk | rfl | rfl := hk
  -- The expression is a single operand, and no operator follows it.
  · have hunary : Role.unary.step.Builds [node k cs] (leavesOf [] ++ rest) :=
      builds_unary hk h (by simp [TokenSet.unaryFollow, hrest])
    have hbinary : isAtAny .binaryOps rest = false :=
      TokenSet.not_contains_of_contains hrest (by decide)
    have his : kindAt rest 0 ≠ .kwIs := ne_of_contains hrest (by decide)
    exact Step.Turns.fills hunary (.passed hbinary (.idle (.mayNot his)))
  all_goals
    -- Of the operators, the binary ones and `is` are told by the first token behind the operand.
    obtain ⟨hshape, -, -, -, hread⟩ := h
    simp only [Kind.production, Shape.expr, Shape.matches_nodes_cons, Shape.matches_tokens_cons,
      Shape.matches_token_cons, Shape.matches_row_nil] at hshape
  -- A binary operator, and to its right a whole expression.
  · obtain ⟨j, ds, -, rfl, hj, i, text, -, rfl, hi, l, ls, -, rfl, hl, rfl⟩ := hshape
    have hunary : Role.unary.step.Builds [node j ds] (leavesOf [leaf i text, node l ls] ++ rest) :=
      hread (node j ds) (by simp) .unary _ ⟨hj, by simp [TokenSet.unaryFollow, hi]⟩
    have hright := builds_rest (hread (node l ls) (by simp) .expr rest ⟨hl, hrest⟩)
    refine Step.Turns.fills hunary (.taken ?_ (.wrap (.cons (.tokens hi) (.cons hright .nil))))
    simpa [isAtAny] using hi
  -- `is` and the name of a type.
  · obtain ⟨j, ds, -, rfl, hj, is, -, rfl, name, -, rfl, rfl⟩ := hshape
    have hunary : Role.unary.step.Builds [node j ds]
        (leavesOf [leaf .kwIs is, leaf .identifier name] ++ rest) :=
      hread (node j ds) (by simp) .unary _ ⟨hj, by simp [TokenSet.unaryFollow]⟩
    refine Step.Turns.fills hunary (.passed ?_
      (.taken (by simp) (.wrap (.cons .token (.cons .token .nil)))))
    simp [isAtAny]
    decide

/-- A whole expression is read back where nothing follows that goes on with it. -/
theorem builds_expr (hk : TokenSet.exprNodes.contains k = true) (h : Prepared k cs)
    (hrest : TokenSet.exprFollow.contains (kindAt rest 0) = true) :
    Rule.expr.step.Builds [node k cs] rest := by
  have hfirst := (opens_expr hk h.node_follows).first rest
  refine .rule leads_expr (.guarded ?_ (Step.Fills.group (fills_operators hk h hrest)))
  simpa [isAtAny] using hfirst

end Grammar

end ScriptTree
