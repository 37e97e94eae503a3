import ScriptTree.Grammar.Expression
import ScriptTree.Parser.Builder

/-!
# Routines

A routine is a rule as it is carried out on a builder, step by step.  Where a script encloses a
body, a routine opens something and closes it later, on every path that leads there: it may return
early, open nodes and levels in a loop and close all of them in the end.

Routines and loops refer to each other through `Callees`.  A loop is an action of its own, with the
variables of the loop as its arguments; each round ends with the loop itself or with an answer.
-/

namespace ScriptTree

/-- The routines of the grammar. -/
inductive Routine where
  /-- The whole source. -/
  | root
  | item
  /-- What is no item. -/
  | itemRecovery
  | importDecl
  | fnDecl
  /-- What follows the name of a function, or makes up a function literal. -/
  | fnTail
  | param
  | typeDecl
  | typeMember
  | attrDecl
  /-- What is no member of a type. -/
  | memberRecovery
  | statement
  /-- A block, which is a statement by itself or the body of something. -/
  | block (asStatement : Bool)
  /-- Statements up to the closing brace. -/
  | statementList
  /-- What is no statement. -/
  | statementRecovery
  /-- A conditional, with the semicolon after it if `terminated`. -/
  | ifStmt (terminated : Bool)
  | whileStmt
  /-- What stands between parentheses after a keyword. -/
  | condition (keyword : String)
  | forStmt
  | varStmt
  | initializer
  | returnStmt
  | exprStmt (terminated : Bool)
  | expr
  /-- An operand with the operators before it. -/
  | unary
  /-- An operand without the operators before it. -/
  | operand
  /-- A primary expression with the accessors after it. -/
  | member
  | accessor (a : Grammar.Accessor)
  | memberName (after : String)
  | primary
  /-- A primary expression that starts with a name. -/
  | namePrimary
  | refLiteral
  | recordProp
  | parenExpr
  /-- A list between delimiters. -/
  | delimited (form : ListForm)
  | typeList
  | typeName
  | typeArgs
  deriving DecidableEq, Repr

/-- The delimiter that a list opens. -/
def ListForm.opening : ListForm → Delimiter
  | params | callArgs => .paren
  | array => .bracket
  | record => .curly

/-- The delimiter that a list closes.  It is named apart from the one that was opened. -/
def ListForm.closing : ListForm → Delimiter
  | params | callArgs => .paren
  | array => .bracket
  | record => .curly

/-- What a routine can go on with: other routines, and loops. -/
structure Callees where
  routine : Routine → Action Unit
  /-- Imports as long as they come. -/
  imports : Action Unit
  /-- Items up to the end. -/
  items : Action Unit
  /-- Members of a type body up to its closing brace. -/
  members : Action Unit
  /-- Statements up to the closing brace, after `count` of them; answers how many there are. -/
  statements (count : Nat) : Action Nat
  /-- Elements of a list up to its end. -/
  elements (form : ListForm) : Action Unit
  /-- Operands and operators.  `nested` nodes are open already, and the next one begins at `mark`;
      answers how many are open in the end. -/
  operators (nested mark : Nat) : Action Nat
  /-- Operators before an operand, and the operand.  `nested` nodes are open already; answers how
      many are open in the end. -/
  prefixes (nested : Nat) : Action Nat
  /-- Accessors as long as they come.  Their node begins at `mark`, unless it is open already
      (`wrapped`); answers whether it is open in the end. -/
  accessors (wrapped : Bool) (mark : Nat) : Action Bool
  /-- Further members of a union type. -/
  unionTail : Action Unit
  /-- Further type arguments. -/
  typeArgTail : Action Unit
  /-- Tokens up to the end or one of a set; the end is tested first. -/
  discard (stops : TokenSet) : Action Unit
  /-- Tokens up to one of a set or the end; the set is tested first. -/
  skipTo (stops : TokenSet) : Action Unit

namespace Callees

/-- Nothing more may be called. -/
def none : Callees where
  routine _ := throw .runaway
  imports := throw .runaway
  items := throw .runaway
  members := throw .runaway
  statements _ := throw .runaway
  elements _ := throw .runaway
  operators _ _ := throw .runaway
  prefixes _ := throw .runaway
  accessors _ _ := throw .runaway
  unionTail := throw .runaway
  typeArgTail := throw .runaway
  discard _ := throw .runaway
  skipTo _ := throw .runaway

end Callees

end ScriptTree
