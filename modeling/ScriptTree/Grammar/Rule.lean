import ScriptTree.Parser.State

/-!
# Rules

The names of the rules of the grammar, as far as rules refer to each other.  What a rule does is
its `Script` (`Rule.script` in `ScriptTree.Grammar`).  A loop is a rule that refers to itself.
-/

namespace ScriptTree

/-- Comma-separated lists between delimiters. -/
inductive ListForm where
  | params
  | callArgs
  | array
  | record
  deriving DecidableEq, Repr

/-- The rules of the grammar. -/
inductive Rule where
  /-- The whole source. -/
  | program
  /-- Imports as long as they come. -/
  | imports
  /-- Items up to the end. -/
  | items
  /-- One item, or the recovery from something else. -/
  | item
  | importDecl
  | fnDecl
  /-- What follows the name of a function, or makes up a function literal. -/
  | fnTail
  | param
  | typeDecl
  /-- Members of a type body up to its closing brace. -/
  | members
  | member
  /-- Statements up to the closing brace; `seen` if there was one already. -/
  | statements (seen : Bool)
  | statement
  /-- A block that is a statement. -/
  | block
  /-- A block that is the body of something. -/
  | body
  /-- A conditional, with the semicolon after it if `terminated`. -/
  | ifStmt (terminated : Bool)
  | initializer
  | expr
  /-- An operand with the operators and operands after it. -/
  | chain
  /-- Operators before an operand, after `count` of them. -/
  | prefixes (count : Nat)
  /-- An operand without the operators before it. -/
  | operand
  /-- Accessors as long as they come; `wrapped` if their node is open already. -/
  | accessors (wrapped : Bool)
  | primary
  /-- Elements of a list up to its end. -/
  | elements (form : ListForm)
  | recordProp
  | typeList
  /-- Further members of a union type. -/
  | unionTail
  | typeName
  /-- Further type arguments. -/
  | typeArgTail
  /-- Tokens up to the end or one of a set; the end is tested first. -/
  | discard (stops : TokenSet)
  /-- Tokens up to one of a set or the end; the set is tested first. -/
  | skipTo (stops : TokenSet)
  deriving DecidableEq, Repr

end ScriptTree
