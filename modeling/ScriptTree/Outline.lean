import ScriptTree.TokenClass
import ScriptTree.Tree

/-!
# Outlines

An outline names the parts of a node: the condition of a loop, the name of a function.  Which
parts a node of a given kind has is a table (`Outline.fields`), and each part is found among the
children by a `Selector`.  A part that recovery left out is simply not found; the tree stays the
source of truth.
-/

namespace ScriptTree

/-- A tree at its place in the source. -/
structure Element where
  tree : Tree
  start : Nat
  deriving DecidableEq, Repr

namespace Element

/-- The kind of the root. -/
def kind (e : Element) : Kind := e.tree.kind

/-- Offset after the last byte. -/
def stop (e : Element) : Nat := e.start + e.tree.width

/-- Trees that follow each other, at their places. -/
def row (start : Nat) : List Tree → List Element
  | [] => []
  | t :: ts => ⟨t, start⟩ :: row (start + t.width) ts

/-- The children of a node. -/
def children (e : Element) : List Element := row e.start e.tree.children

/-- The children that are nodes. -/
def nodes (e : Element) : List Element := e.children.filter (·.tree.isNode)

/-- The children that are leaves. -/
def tokens (e : Element) : List Element := e.children.filter (!·.tree.isNode)

end Element

namespace Tree

mutual

/-- A tree's nodes, each before its children. -/
def preorder (start : Nat) : Tree → List Element
  | leaf _ _ => []
  | node kind children => ⟨node kind children, start⟩ :: preorderOf start children

/-- The nodes of trees that follow each other. -/
def preorderOf (start : Nat) : List Tree → List Element
  | [] => []
  | t :: ts => preorder start t ++ preorderOf (start + t.width) ts

end

end Tree

namespace Outline

/-! ## Classes of nodes -/

/-- What may stand in a block. -/
def stmts : TokenSet :=
  .ofList [.block, .ifStmt, .whileStmt, .forStmt, .varStmt, .exprStmt, .returnStmt]

/-- What may stand at top level after the imports. -/
def items : TokenSet := .ofList [.fnDecl, .typeDecl] ∪ stmts

/-- Expressions. -/
def exprs : TokenSet :=
  .ofList [.binaryExpr, .isExpr, .prefixExpr, .postfixExpr, .memberExpr, .nameRef, .refLiteral,
    .literal, .recordLiteral, .arrayLiteral, .fnLiteral, .parenExpr]

/-- Accessors of a member expression. -/
def accessors : TokenSet :=
  .ofList [.fieldAccess, .staticAccess, .indexAccess, .callArgs, .nonNullAssert]

/-- The classes with their names. -/
def classes : List (String × TokenSet) :=
  [("Item", items), ("Stmt", stmts), ("Expr", exprs), ("Accessor", accessors)]

/-- The names of the classes of a kind. -/
def classNames (kind : Kind) : List String :=
  (classes.filter (·.2.contains kind)).map (·.1)

/-! ## Parts of nodes -/

/-- How a part is found among the children. -/
inductive Selector where
  /-- The first leaf with a kind in the set. -/
  | token (set : TokenSet)
  /-- The `n`-th node with a kind in the set, from zero. -/
  | child (set : TokenSet) (n : Nat)
  /-- All nodes with a kind in the set. -/
  | children (set : TokenSet)
  /-- Is there a leaf of this kind? -/
  | mark (kind : Kind)
  /-- The first leaf of the node, unless it is trivia. -/
  | leading
  deriving DecidableEq, Repr

/-- A part of a node. -/
inductive Part where
  | token (found : Option Element)
  | child (found : Option Element)
  | children (found : List Element)
  | mark (found : Bool)
  deriving DecidableEq, Repr

/-- Find a part. -/
def Selector.find (e : Element) : Selector → Part
  | token set => .token (e.tokens.find? (set.contains ·.kind))
  | child set n => .child (e.nodes.filter (set.contains ·.kind))[n]?
  | children set => .children (e.nodes.filter (set.contains ·.kind))
  | mark kind => .mark (e.tokens.any (·.kind == kind))
  | leading =>
    .token (e.tree.leaves.head?.bind fun (kind, text) =>
      if kind.isTrivia then none else some ⟨.leaf kind text, e.start⟩)

/-- The first leaf of a kind. -/
def tokenOf (kind : Kind) : Selector := .token (.single kind)

/-- The first node of a kind. -/
def childOf (kind : Kind) : Selector := .child (.single kind) 0

/-- All nodes of a kind. -/
def childrenOf (kind : Kind) : Selector := .children (.single kind)

/-- The first expression. -/
def firstExpr : Selector := .child exprs 0

/-- The second expression. -/
def secondExpr : Selector := .child exprs 1

/-- The parts of a node, by name. -/
def fields : Kind → List (String × Selector)
  | .program => [("imports", childrenOf .importDecl), ("items", .children items)]
  | .importDecl => [("path", .token .stringLiterals)]
  | .fnDecl =>
    [("name", tokenOf .identifier), ("params", childOf .paramList),
     ("return_type", childOf .typeList), ("body", childOf .logicBlock)]
  | .fnLiteral =>
    [("params", childOf .paramList), ("return_type", childOf .typeList),
     ("body", childOf .logicBlock)]
  | .paramList => [("params", childrenOf .param)]
  | .param => [("name", tokenOf .identifier), ("type_list", childOf .typeList)]
  | .typeDecl =>
    [("is_open", .mark .kwOpen), ("name", tokenOf .identifier),
     ("members", childrenOf .typeMember)]
  | .typeMember =>
    [("is_private", .mark .kwPrivate), ("is_static", .mark .kwStatic),
     ("function", childOf .fnDecl), ("attribute", childOf .attrDecl)]
  | .attrDecl =>
    [("name", tokenOf .identifier), ("type_list", childOf .typeList),
     ("initializer", childOf .initializer)]
  | .typeList => [("types", childrenOf .typeName)]
  | .typeName => [("name", tokenOf .identifier), ("args", childOf .typeArgs)]
  | .typeArgs => [("lists", childrenOf .typeList)]
  | .block => [("statements", .children stmts)]
  | .logicBlock => [("statements", .children stmts)]
  | .ifStmt =>
    [("condition", firstExpr), ("then_block", childOf .logicBlock),
     ("else_clause", childOf .elseClause)]
  | .elseClause => [("block", childOf .logicBlock), ("if_stmt", childOf .ifStmt)]
  | .whileStmt => [("condition", firstExpr), ("body", childOf .logicBlock)]
  | .forStmt =>
    [("variable", tokenOf .identifier), ("init", firstExpr), ("condition", secondExpr),
     ("update", childOf .exprStmt), ("body", childOf .logicBlock)]
  | .varStmt =>
    [("name", tokenOf .identifier), ("type_list", childOf .typeList),
     ("initializer", childOf .initializer)]
  | .initializer => [("value", firstExpr)]
  | .exprStmt => [("expr", firstExpr), ("has_semicolon", .mark .semiColon)]
  | .returnStmt => [("value", firstExpr)]
  | .binaryExpr => [("lhs", firstExpr), ("operator", .token .binaryOps), ("rhs", secondExpr)]
  | .isExpr => [("operand", firstExpr), ("type_name", tokenOf .identifier)]
  | .prefixExpr => [("operator", .token .prefixOps), ("operand", firstExpr)]
  | .postfixExpr => [("operand", firstExpr), ("operator", .token .postfixOps)]
  | .memberExpr =>
    [("is_new", .mark .kwNew), ("base", firstExpr), ("accessors", .children accessors)]
  | .fieldAccess => [("name", .token .identifierNames)]
  | .staticAccess => [("name", .token .identifierNames)]
  | .indexAccess => [("index", firstExpr)]
  | .callArgs => [("args", .children exprs)]
  | .nameRef => [("name", tokenOf .identifier)]
  | .refLiteral => [("name", tokenOf .identifier)]
  | .literal => [("token", .leading)]
  | .recordLiteral => [("type_name", tokenOf .identifier), ("props", childrenOf .recordProp)]
  | .recordProp => [("name", .token .identifierNames), ("value", firstExpr)]
  | .arrayLiteral => [("element_type", tokenOf .identifier), ("elements", .children exprs)]
  | .parenExpr => [("inner", firstExpr)]
  | _ => []

/-- The parts of a node, by name, as they are found. -/
def parts (e : Element) : List (String × Part) :=
  (fields e.kind).map fun (name, selector) => (name, selector.find e)

end Outline

end ScriptTree
