import ScriptTree.TokenClass
import ScriptTree.Tree

/-!
# Productions

Which children a node may have, by its kind.  A `Shape` is a regular expression over `Symbol`s, and
`Kind.production` is the table of the shapes of all nodes.  A tree follows the grammar if the
children of each of its nodes have the shape of the node (`Tree.Follows`).  Nothing here refers to
the rules that read a tree.

Sequences of shapes are taken apart from the left by `simp` (`Shape.matches_token_cons`,
`Shape.matches_opt_cons`, …).

## Key results

- `Shape.matches_many_one`: a repeated symbol is a condition on each child
- `Shape.matches_listed_iff`: a list is empty, one element, or an element and a comma before a list
-/

namespace ScriptTree

/-! ## Symbols -/

/-- A node that ends with a semicolon of its own. -/
def Tree.isTerminated (t : Tree) : Bool := t.children.getLast?.any (·.isDropped (· == .semiColon))

/-- Whether a node is terminated is told by its last child. -/
@[simp] theorem Tree.isTerminated_append (k : Kind) (ts : List Tree) (t : Tree) :
    (node k (ts ++ [t])).isTerminated = t.isDropped (· == .semiColon) := by
  simp [isTerminated, children]

/-- What one child may be. -/
inductive Symbol where
  /-- A leaf of a kind in the first set, or a node of a kind in the second. -/
  | either (leaves nodes : TokenSet)
  /-- A node of this kind without its semicolon. -/
  | bare (kind : Kind)
  deriving DecidableEq, Repr

/-- Is the tree an instance of the symbol? -/
def Symbol.fits : Symbol → Tree → Bool
  | either leaves _, .leaf kind _ => leaves.contains kind
  | either _ nodes, .node kind _ => nodes.contains kind
  | bare _, .leaf _ _ => false
  | bare kind, .node found children => found == kind && !(Tree.node found children).isTerminated

/-! ## Shapes -/

/-- What the children of a node may be, all together. -/
inductive Shape where
  /-- No children are right. -/
  | never
  | empty
  | one (symbol : Symbol)
  | seq (first second : Shape)
  | alt (left right : Shape)
  | many (shape : Shape)
  deriving DecidableEq, Repr

namespace Shape

/-- The lists of trees that have a shape. -/
def Matches : Shape → List Tree → Prop
  | never, _ => False
  | empty, ts => ts = []
  | one symbol, ts => ∃ t, ts = [t] ∧ symbol.fits t = true
  | seq first second, ts => ∃ us vs, ts = us ++ vs ∧ first.Matches us ∧ second.Matches vs
  | alt left right, ts => left.Matches ts ∨ right.Matches ts
  | many shape, ts => ∃ tss : List (List Tree), ts = tss.flatten ∧ ∀ us ∈ tss, shape.Matches us

/-- Shapes one after the other. -/
def row : List Shape → Shape
  | [] => empty
  | shape :: shapes => seq shape (row shapes)

/-- A shape that may be missing. -/
def opt (shape : Shape) : Shape := alt empty shape

/-- A token of a kind. -/
def token (kind : Kind) : Shape := one (.either (.single kind) .empty)

/-- A token of a set. -/
def tokens (set : TokenSet) : Shape := one (.either set .empty)

/-- A node of a kind. -/
def node (kind : Kind) : Shape := one (.either .empty (.single kind))

/-- A node of a set. -/
def nodes (set : TokenSet) : Shape := one (.either .empty set)

/-- A node of a set, or a semicolon. -/
def orSemicolon (set : TokenSet) : Shape := one (.either (.single .semiColon) set)

/-- A list with commas, one of them at the end perhaps: `(element (, element)* ,?)?` -/
def listed (element : Shape) : Shape :=
  opt (row [element, many (row [token .comma, element]), opt (token .comma)])

end Shape

/-! ## The grammar -/

namespace TokenSet

/-- Nodes that are expressions without operators and accessors. -/
def primaryNodes : TokenSet :=
  ofList [.nameRef, .refLiteral, .literal, .recordLiteral, .arrayLiteral, .fnLiteral, .parenExpr]

/-- Nodes that can be operands of a postfix operator. -/
def memberNodes : TokenSet := primaryNodes ∪ single .memberExpr

/-- Nodes that can be operands of a prefix operator. -/
def operandNodes : TokenSet := memberNodes ∪ single .postfixExpr

/-- Nodes that can be left operands of a binary operator. -/
def unaryNodes : TokenSet := operandNodes ∪ single .prefixExpr

/-- Nodes that are expressions. -/
def exprNodes : TokenSet := unaryNodes ∪ ofList [.binaryExpr, .isExpr]

/-- Nodes that are accessors. -/
def accessorNodes : TokenSet :=
  ofList [.fieldAccess, .staticAccess, .indexAccess, .callArgs, .nonNullAssert]

/-- Nodes that are statements. -/
def stmtNodes : TokenSet :=
  ofList [.block, .ifStmt, .whileStmt, .forStmt, .varStmt, .exprStmt, .returnStmt]

/-- Nodes that are items of a program. -/
def itemNodes : TokenSet := ofList [.fnDecl, .typeDecl] ∪ stmtNodes

end TokenSet

namespace Shape

/-- An expression. -/
def expr : Shape := nodes .exprNodes

/-- Reads `: types` -/
def ascription : Shape := row [token .colon, node .typeList]

/-- A semicolon that may be missing. -/
def terminator : Shape := opt (token .semiColon)

end Shape

open Shape in
/-- The shape of the children of each node.  Tokens have no children, and an error node is never
    right. -/
def Kind.production : Kind → Shape
  | .program => row [many (node .importDecl), many (orSemicolon .itemNodes)]
  | .importDecl => row [token .kwImport, tokens .stringLiterals, terminator]
  | .fnDecl => row [token .kwFunction, token .identifier, node .paramList, opt ascription,
      node .logicBlock]
  | .fnLiteral => row [node .paramList, opt ascription, node .logicBlock]
  | .paramList => row [token .lParen, listed (node .param), token .rParen]
  | .callArgs => row [token .lParen, listed expr, token .rParen]
  | .arrayLiteral => row [opt (token .identifier), token .lBracket, listed expr, token .rBracket]
  | .recordLiteral =>
    row [opt (token .identifier), token .lCurly, listed (node .recordProp), token .rCurly]
  | .param => row [token .identifier, token .colon, node .typeList]
  | .typeDecl => row [opt (token .kwOpen), token .kwType, token .identifier, token .lCurly,
      many (orSemicolon (.single .typeMember)), token .rCurly]
  | .typeMember => row [opt (alt (row [token .kwPrivate, opt (token .kwStatic)])
      (row [token .kwStatic, opt (token .kwPrivate)])), nodes (.ofList [.fnDecl, .attrDecl]),
      terminator]
  | .attrDecl => row [token .identifier, token .colon, node .typeList, opt (node .initializer)]
  | .typeList => row [node .typeName, many (row [token .pipe, node .typeName])]
  | .typeName => row [token .identifier, opt (node .typeArgs)]
  | .typeArgs => row [token .less, node .typeList, many (row [token .comma, node .typeList]),
      token .greater]
  | .block => row [token .lCurly, many (orSemicolon .stmtNodes), nodes .stmtNodes,
      many (orSemicolon .stmtNodes), token .rCurly, terminator]
  | .logicBlock => row [token .lCurly, many (orSemicolon .stmtNodes), token .rCurly]
  | .ifStmt => row [token .kwIf, token .lParen, expr, token .rParen, node .logicBlock,
      opt (node .elseClause), terminator]
  | .elseClause => row [token .kwElse, alt (one (.bare .ifStmt)) (node .logicBlock)]
  | .whileStmt => row [token .kwWhile, token .lParen, expr, token .rParen, node .logicBlock,
      terminator]
  | .forStmt => row [token .kwFor, token .lParen, token .identifier, token .eq, expr,
      token .semiColon, expr, token .semiColon, one (.bare .exprStmt), token .rParen,
      node .logicBlock, terminator]
  | .varStmt => row [token .kwVar, token .identifier, opt ascription, opt (node .initializer),
      terminator]
  | .initializer => row [token .eq, expr]
  | .exprStmt => row [expr, terminator]
  | .returnStmt => row [token .kwReturn, expr, terminator]
  | .binaryExpr => row [nodes .unaryNodes, tokens .binaryOps, expr]
  | .isExpr => row [nodes .unaryNodes, token .kwIs, token .identifier]
  | .prefixExpr => row [tokens .prefixOps, nodes .operandNodes]
  | .postfixExpr => row [nodes .memberNodes, tokens .postfixOps]
  | .memberExpr => alt
      (row [token .kwNew, nodes .primaryNodes, many (nodes .accessorNodes)])
      (row [nodes .primaryNodes, nodes .accessorNodes, many (nodes .accessorNodes)])
  | .fieldAccess => row [token .dot, tokens .identifierNames]
  | .staticAccess => row [token .colon, token .colon, tokens .identifierNames]
  | .indexAccess => row [token .lBracket, expr, token .rBracket]
  | .nonNullAssert => token .exclMark
  | .nameRef => token .identifier
  | .refLiteral => row [token .hash, token .identifier]
  | .literal => tokens .literals
  | .recordProp => row [tokens .identifierNames, token .colon, expr]
  | .parenExpr => row [token .lParen, expr, token .rParen]
  | _ => never

namespace Tree

mutual

/-- The children of each node have the shape that the grammar demands. -/
def Follows : Tree → Prop
  | leaf _ _ => True
  | node kind children => kind.production.Matches children ∧ FollowsAll children

/-- Several trees that follow the grammar. -/
def FollowsAll : List Tree → Prop
  | [] => True
  | t :: ts => t.Follows ∧ FollowsAll ts

end

/-- A leaf follows any grammar. -/
@[simp] theorem follows_leaf (k : Kind) (text : String) : (leaf k text).Follows := by
  simp [Follows]

/-- A node follows the grammar if its children match its production and follow the grammar
    themselves. -/
theorem follows_node (k : Kind) (cs : List Tree) :
    (node k cs).Follows ↔ k.production.Matches cs ∧ FollowsAll cs := by
  rw [Follows]

@[simp] theorem followsAll_nil : FollowsAll [] := by simp [FollowsAll]

@[simp] theorem followsAll_cons (t : Tree) (ts : List Tree) :
    FollowsAll (t :: ts) ↔ t.Follows ∧ FollowsAll ts := by
  rw [FollowsAll]

/-- Trees follow the grammar one by one. -/
@[simp] theorem followsAll_append (ts us : List Tree) :
    FollowsAll (ts ++ us) ↔ FollowsAll ts ∧ FollowsAll us := by
  induction ts with
  | nil => simp
  | cons t ts ih => simp [ih, and_assoc]

end Tree

/-! ## Taking sequences apart -/

namespace Shape

variable {k : Kind} {set : TokenSet} {shape a b : Shape} {shapes : List Shape} {ts us : List Tree}

@[simp] theorem fits_either_leaf (leaves nodes : TokenSet) (k : Kind) (text : String) :
    (Symbol.either leaves nodes).fits (.leaf k text) = leaves.contains k := rfl

@[simp] theorem fits_either_node (leaves nodes : TokenSet) (k : Kind) (cs : List Tree) :
    (Symbol.either leaves nodes).fits (.node k cs) = nodes.contains k := rfl

/-- What fits a bare symbol is a node that is not terminated. -/
theorem fits_bare {k : Kind} {t : Tree} :
    (Symbol.bare k).fits t = true ↔ ∃ cs, t = .node k cs ∧ t.isTerminated = false := by
  cases t with
  | leaf j text => simp [Symbol.fits]
  | node j cs =>
    simp only [Symbol.fits, Bool.and_eq_true, beq_iff_eq, Bool.not_eq_true', Tree.node.injEq]
    constructor
    · intro h
      exact ⟨cs, ⟨h.1, rfl⟩, h.2⟩
    · intro h
      obtain ⟨-, ⟨hk, -⟩, hbare⟩ := h
      exact ⟨hk, hbare⟩

@[simp] theorem matches_row_nil : (row []).Matches ts ↔ ts = [] := Iff.rfl

/-- A single symbol in a row matches the first tree. -/
private theorem matches_one_cons {symbol : Symbol} :
    (row (one symbol :: shapes)).Matches ts ↔
      ∃ t us, ts = t :: us ∧ symbol.fits t = true ∧ (row shapes).Matches us := by
  constructor
  · intro h
    obtain ⟨-, us, rfl, ⟨t, rfl, ht⟩, hus⟩ := h
    exact ⟨t, us, rfl, ht, hus⟩
  · intro h
    obtain ⟨t, us, rfl, ht, hus⟩ := h
    exact ⟨[t], us, rfl, ⟨t, rfl, ht⟩, hus⟩

/-- A set of tokens in a row matches a leaf of the set. -/
@[simp] theorem matches_tokens_cons : (row (tokens set :: shapes)).Matches ts ↔
    ∃ k text us, ts = .leaf k text :: us ∧ set.contains k = true ∧ (row shapes).Matches us := by
  rw [tokens, matches_one_cons]
  constructor
  · intro h
    obtain ⟨t, us, rfl, ht, hus⟩ := h
    cases t with
    | leaf k text => exact ⟨k, text, us, rfl, ht, hus⟩
    | node k cs => simp at ht
  · intro h
    obtain ⟨k, text, us, rfl, hk, hus⟩ := h
    exact ⟨_, us, rfl, hk, hus⟩

/-- A token in a row matches a leaf of its kind. -/
@[simp] theorem matches_token_cons : (row (token k :: shapes)).Matches ts ↔
    ∃ text us, ts = .leaf k text :: us ∧ (row shapes).Matches us := by
  have h : token k = tokens (.single k) := rfl
  rw [h, matches_tokens_cons]
  simp only [TokenSet.contains_single, beq_iff_eq]
  constructor
  · intro h
    obtain ⟨k, text, us, rfl, rfl, hus⟩ := h
    exact ⟨text, us, rfl, hus⟩
  · intro h
    obtain ⟨text, us, rfl, hus⟩ := h
    exact ⟨k, text, us, rfl, rfl, hus⟩

/-- A set of tokens matches a single leaf of the set. -/
theorem matches_tokens : (tokens set).Matches ts ↔
    ∃ k text, ts = [.leaf k text] ∧ set.contains k = true := by
  constructor
  · intro h
    obtain ⟨t, rfl, ht⟩ := h
    cases t with
    | leaf k text => exact ⟨k, text, rfl, ht⟩
    | node k cs => simp at ht
  · intro h
    obtain ⟨k, text, rfl, hk⟩ := h
    exact ⟨_, rfl, hk⟩

/-- A token matches a single leaf of its kind. -/
theorem matches_token : (token k).Matches ts ↔ ∃ text, ts = [.leaf k text] := by
  have h : token k = tokens (.single k) := rfl
  rw [h, matches_tokens]
  simp only [TokenSet.contains_single, beq_iff_eq]
  constructor
  · intro h
    obtain ⟨k, text, rfl, rfl⟩ := h
    exact ⟨text, rfl⟩
  · intro h
    obtain ⟨text, rfl⟩ := h
    exact ⟨k, text, rfl, rfl⟩

/-- A set of nodes in a row matches a node of the set. -/
@[simp] theorem matches_nodes_cons : (row (nodes set :: shapes)).Matches ts ↔
    ∃ k cs us, ts = .node k cs :: us ∧ set.contains k = true ∧ (row shapes).Matches us := by
  rw [nodes, matches_one_cons]
  constructor
  · intro h
    obtain ⟨t, us, rfl, ht, hus⟩ := h
    cases t with
    | leaf k text => simp at ht
    | node k cs => exact ⟨k, cs, us, rfl, ht, hus⟩
  · intro h
    obtain ⟨k, cs, us, rfl, hk, hus⟩ := h
    exact ⟨_, us, rfl, hk, hus⟩

/-- A node in a row matches a node of its kind. -/
@[simp] theorem matches_node_cons : (row (node k :: shapes)).Matches ts ↔
    ∃ cs us, ts = .node k cs :: us ∧ (row shapes).Matches us := by
  have h : node k = nodes (.single k) := rfl
  rw [h, matches_nodes_cons]
  simp only [TokenSet.contains_single, beq_iff_eq]
  constructor
  · intro h
    obtain ⟨k, cs, us, rfl, rfl, hus⟩ := h
    exact ⟨cs, us, rfl, hus⟩
  · intro h
    obtain ⟨cs, us, rfl, hus⟩ := h
    exact ⟨k, cs, us, rfl, rfl, hus⟩

/-- A bare node in a row matches a node of its kind that is not terminated. -/
@[simp] theorem matches_bare_cons : (row (one (.bare k) :: shapes)).Matches ts ↔
    ∃ cs us, ts = .node k cs :: us ∧ (Tree.node k cs).isTerminated = false ∧
      (row shapes).Matches us := by
  rw [matches_one_cons]
  constructor
  · intro h
    obtain ⟨t, us, rfl, ht, hus⟩ := h
    obtain ⟨cs, rfl, hbare⟩ := fits_bare.mp ht
    exact ⟨cs, us, rfl, hbare, hus⟩
  · intro h
    obtain ⟨cs, us, rfl, hbare, hus⟩ := h
    exact ⟨_, us, rfl, fits_bare.mpr ⟨cs, rfl, hbare⟩, hus⟩

/-- An alternative in a row is one of two rows. -/
@[simp] theorem matches_alt_cons : (row (alt a b :: shapes)).Matches ts ↔
    (row (a :: shapes)).Matches ts ∨ (row (b :: shapes)).Matches ts := by
  simp only [row, Matches]
  constructor
  · intro h
    obtain ⟨us, vs, rfl, hus | hus, hvs⟩ := h
    · exact .inl ⟨us, vs, rfl, hus, hvs⟩
    · exact .inr ⟨us, vs, rfl, hus, hvs⟩
  · intro h
    obtain ⟨us, vs, rfl, hus, hvs⟩ | ⟨us, vs, rfl, hus, hvs⟩ := h
    · exact ⟨us, vs, rfl, .inl hus, hvs⟩
    · exact ⟨us, vs, rfl, .inr hus, hvs⟩

/-- What is empty may be left out of a row. -/
private theorem matches_empty_cons :
    (row (empty :: shapes)).Matches ts ↔ (row shapes).Matches ts := by
  constructor
  · intro h
    obtain ⟨us, vs, rfl, rfl, hvs⟩ := h
    exact hvs
  · intro h
    exact ⟨[], ts, rfl, rfl, h⟩

/-- What is optional is left out of a row or is in it. -/
@[simp] theorem matches_opt_cons : (row (opt shape :: shapes)).Matches ts ↔
    (row shapes).Matches ts ∨ (row (shape :: shapes)).Matches ts := by
  rw [opt, matches_alt_cons]
  exact or_congr_left matches_empty_cons

/-- A row in a row is one row. -/
@[simp] theorem matches_row_cons {parts : List Shape} :
    (row (row parts :: shapes)).Matches ts ↔ (row (parts ++ shapes)).Matches ts := by
  induction parts generalizing ts with
  | nil => exact matches_empty_cons
  | cons part parts ih =>
    simp only [List.cons_append]
    constructor
    · intro h
      obtain ⟨-, ws, rfl, ⟨us, vs, rfl, hus, hvs⟩, hws⟩ := h
      exact ⟨us, vs ++ ws, by simp, hus, ih.mp ⟨vs, ws, rfl, hvs, hws⟩⟩
    · intro h
      obtain ⟨us, ts', rfl, hus, htail⟩ := h
      obtain ⟨vs, ws, rfl, hvs, hws⟩ := ih.mpr htail
      exact ⟨us ++ vs, ws, by simp, ⟨us, vs, rfl, hus, hvs⟩, hws⟩

/-- What is repeated in a row matches some of the trees. -/
@[simp] theorem matches_many_cons : (row (many shape :: shapes)).Matches ts ↔
    ∃ us vs, ts = us ++ vs ∧ (many shape).Matches us ∧ (row shapes).Matches vs := Iff.rfl

/-- What is listed in a row matches some of the trees. -/
@[simp] theorem matches_listed_cons : (row (listed shape :: shapes)).Matches ts ↔
    ∃ us vs, ts = us ++ vs ∧ (listed shape).Matches us ∧ (row shapes).Matches vs := Iff.rfl

/-! ## Repetition -/

/-- What is repeated may not be there at all. -/
@[simp] theorem matches_many_nil : (many shape).Matches [] := ⟨[], rfl, by simp⟩

/-- One more repetition may stand in front. -/
theorem matches_many_append (h : shape.Matches ts) (hmany : (many shape).Matches us) :
    (many shape).Matches (ts ++ us) := by
  obtain ⟨tss, rfl, hall⟩ := hmany
  refine ⟨ts :: tss, by simp, ?_⟩
  intro vs hvs
  obtain rfl | hvs := List.mem_cons.mp hvs
  · exact h
  · exact hall vs hvs

/-- A repeated symbol is a condition on each tree. -/
theorem matches_many_one {symbol : Symbol} :
    (many (one symbol)).Matches ts ↔ ∀ t ∈ ts, symbol.fits t = true := by
  constructor
  · intro h
    obtain ⟨tss, rfl, hall⟩ := h
    intro t ht
    obtain ⟨us, hus, ht⟩ := List.mem_flatten.mp ht
    obtain ⟨u, rfl, hu⟩ := hall us hus
    rwa [List.mem_singleton.mp ht]
  · intro h
    induction ts with
    | nil => simp
    | cons t ts ih =>
      have hone : (one symbol).Matches [t] := ⟨t, rfl, h t List.mem_cons_self⟩
      exact matches_many_append hone (ih fun u hu => h u (List.mem_cons_of_mem t hu))

/-- Repeated nodes are nodes of the set, all of them. -/
theorem matches_many_nodes : (many (nodes set)).Matches ts ↔
    ∀ t ∈ ts, ∃ k cs, t = .node k cs ∧ set.contains k = true := by
  have hfits : ∀ t : Tree, (Symbol.either .empty set).fits t = true ↔
      ∃ k cs, t = .node k cs ∧ set.contains k = true := by
    intro t
    cases t <;> simp
  rw [nodes, matches_many_one]
  simp only [hfits]

/-- A list is empty, or one element, or an element and a comma before a list. -/
theorem matches_listed_iff {set : TokenSet} : (listed (nodes set)).Matches ts ↔
    ts = [] ∨ ∃ k cs, set.contains k = true ∧
      (ts = [.node k cs] ∨ ∃ text us, ts = .node k cs :: .leaf .comma text :: us ∧
        (listed (nodes set)).Matches us) := by
  -- A list as one optional row: a first element, further ones after commas, a comma perhaps.
  have hopt : ∀ ts, (listed (nodes set)).Matches ts ↔ ts = [] ∨
      ∃ k cs us vs, ts = .node k cs :: (us ++ vs) ∧ set.contains k = true ∧
        (many (row [token .comma, nodes set])).Matches us ∧
          (vs = [] ∨ ∃ text, vs = [.leaf .comma text]) := by
    intro ts
    rw [listed, opt, Matches]
    refine or_congr Iff.rfl ?_
    simp only [matches_nodes_cons, matches_many_cons, matches_opt_cons, matches_token_cons,
      matches_row_nil]
    constructor
    · intro h
      obtain ⟨k, cs, us, rfl, hk, us, vs, rfl, hus, rfl | ⟨text, -, rfl, rfl⟩⟩ := h
      · exact ⟨k, cs, us, [], rfl, hk, hus, .inl rfl⟩
      · exact ⟨k, cs, us, _, rfl, hk, hus, .inr ⟨text, rfl⟩⟩
    · intro h
      obtain ⟨k, cs, us, vs, rfl, hk, hus, rfl | ⟨text, rfl⟩⟩ := h
      · exact ⟨k, cs, _, rfl, hk, us, [], rfl, hus, .inl rfl⟩
      · exact ⟨k, cs, _, rfl, hk, us, _, rfl, hus, .inr ⟨text, [], rfl, rfl⟩⟩
  constructor
  -- An element after the first one comes with its comma, and the rest is a list again.
  · intro h
    obtain rfl | ⟨k, cs, us, vs, rfl, hk, hus, hvs⟩ := (hopt ts).mp h
    · exact .inl rfl
    refine .inr ⟨k, cs, hk, ?_⟩
    obtain ⟨tss, rfl, hall⟩ := hus
    cases tss with
    | nil =>
      obtain rfl | ⟨text, rfl⟩ := hvs
      · exact .inl rfl
      · exact .inr ⟨text, [], rfl, (hopt []).mpr (.inl rfl)⟩
    | cons us tss =>
      have hfirst := hall us List.mem_cons_self
      simp only [matches_token_cons, matches_nodes_cons, matches_row_nil] at hfirst
      obtain ⟨text, -, rfl, j, ds, -, rfl, hj, rfl⟩ := hfirst
      refine .inr ⟨text, .node j ds :: (tss.flatten ++ vs), by simp, ?_⟩
      have htss : (many (row [token .comma, nodes set])).Matches tss.flatten :=
        ⟨tss, rfl, fun us hus => hall us (List.mem_cons_of_mem _ hus)⟩
      exact (hopt _).mpr (.inr ⟨j, ds, tss.flatten, vs, rfl, hj, htss, hvs⟩)
  -- Conversely, the comma in front joins the list behind it as one more round.
  · intro h
    obtain rfl | ⟨k, cs, hk, rfl | ⟨text, us, rfl, hus⟩⟩ := h
    · exact (hopt []).mpr (.inl rfl)
    · exact (hopt _).mpr (.inr ⟨k, cs, [], [], rfl, hk, by simp, .inl rfl⟩)
    refine (hopt _).mpr (.inr ⟨k, cs, ?_⟩)
    obtain rfl | ⟨j, ds, us, vs, rfl, hj, hus, hvs⟩ := (hopt us).mp hus
    · exact ⟨[], [.leaf .comma text], rfl, hk, by simp, .inr ⟨text, rfl⟩⟩
    · have hfirst : (row [token .comma, nodes set]).Matches [.leaf .comma text, .node j ds] := by
        simp [and_assoc, hj]
      exact ⟨[.leaf .comma text, .node j ds] ++ us, vs, by simp, hk,
        matches_many_append hfirst hus, hvs⟩

/-- Induction on a list with commas, element by element. -/
theorem matches_listed_induct {set : TokenSet} {P : List Tree → Prop} (hnil : P [])
    (hone : ∀ k cs, set.contains k = true → P [.node k cs])
    (hcons : ∀ k cs text us, set.contains k = true → P us →
      P (.node k cs :: .leaf .comma text :: us))
    (h : (listed (nodes set)).Matches ts) : P ts := by
  induction hn : ts.length using Nat.strongRecOn generalizing ts with
  | ind n ih =>
    obtain rfl | ⟨k, cs, hk, rfl | ⟨text, us, rfl, hus⟩⟩ := matches_listed_iff.mp h
    · exact hnil
    · exact hone k cs hk
    · have hlt : us.length < n := by
        rw [← hn, List.length_cons, List.length_cons]
        omega
      exact hcons k cs text us hk (ih us.length hlt hus rfl)

end Shape

end ScriptTree
