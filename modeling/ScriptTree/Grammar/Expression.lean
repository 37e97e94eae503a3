import ScriptTree.Grammar.Script

/-!
# Expressions

Binary operators are not ranked: all of them chain to the right, so `a - b * c = d` reads as
`a - (b * (c = d))`.  A reader who needs precedence has the flat chain at hand.

Nodes for operators, accessors and type tests are made by `wrap` once it is known that they are
needed, around the operand that was read before.
-/

namespace ScriptTree.Grammar

open Fragment

/-! ## Types -/

/-- Reads `type (| type)*` -/
def typeList : Fragment Unit :=
  node .typeList do
    call .typeName
    call .unionTail

/-- Reads `(| type)*` -/
def unionTail : Fragment Unit := do
  if ← eat .pipe then
    call .typeName
    call .unionTail

/-- Reads `< types (, types)* >` -/
def typeArgs : Fragment Unit :=
  node .typeArgs do
    bump
    call .typeList
    call .typeArgTail
    require .greater "`>` to close the type arguments"

/-- Reads `(, types)*` -/
def typeArgTail : Fragment Unit := do
  if ← eat .comma then
    call .typeList
    call .typeArgTail

/-- A name with type arguments if there are any. -/
def typeName : Fragment Unit := do
  if ← isAt .identifier then
    let _ ← deeper <| node .typeName do
      bump
      if ← isAt .less then typeArgs
  else missing .expectedTypeName "a type name"

end ScriptTree.Grammar

/-! ## Lists -/

namespace ScriptTree.ListForm

/-- The delimiters of a list. -/
def delimiter : ListForm → Delimiter
  | params | callArgs => .paren
  | array => .bracket
  | record => .curly

/-- First tokens of an element. -/
def first : ListForm → TokenSet
  | params => .single .identifier
  | callArgs | array => .exprFirst
  | record => .identifierNames

/-- The rule of an element. -/
def element : ListForm → Rule
  | params => .param
  | callArgs | array => .expr
  | record => .recordProp

/-- The problem of something that is no element. -/
def problem : ListForm → Problem
  | params | record => .expectedIdentifier
  | callArgs | array => .expectedExpression

/-- What an element is called in messages. -/
def elementName : ListForm → String
  | params => "a parameter name"
  | callArgs => "an argument"
  | array => "an array element"
  | record => "a property name"

/-- What the list is called in messages. -/
def construct : ListForm → String
  | params => "parameter list"
  | callArgs => "argument list"
  | array => "array literal"
  | record => "record literal"

end ScriptTree.ListForm

namespace ScriptTree.Grammar

open Fragment

/-- Reads `open (element (, element)* ,?)? close` -/
def delimited (form : ListForm) : Fragment Unit := do
  entered form.delimiter.opener
  enclosed form.delimiter form.construct (call (.elements form))

/-- The elements of a list.  A missing comma is reported and taken as read.  Stray tokens become
    error nodes one by one, up to the closer or a token that ends lists anyway. -/
def elements (form : ListForm) : Fragment Unit := do
  unless ← stopped do
    let kind ← current
    if kind = form.delimiter.closer then return
    if form.first.contains kind then
      call form.element
      if ← eat .comma then call (.elements form)
      else if ← isAtAny form.first then
        require .comma "`,` between list elements"
        call (.elements form)
    else unless TokenSet.listStop.contains kind do
      missing form.problem form.elementName
      node .error bump
      call (.elements form)

/-! ## Primary expressions -/

/-- Does `( )` or `( name : T` start here, where `T` is no second colon?  Then it is a function
    literal and not an expression in parentheses. -/
def atFnLiteral : Fragment Bool := do
  match ← ahead 1 with
  | .rParen => return true
  | .identifier =>
    if (← ahead 2) = .colon then return (← ahead 3) != .colon
    else return false
  | _ => return false

/-- Does `{ name :` start here, without a second colon?  Then it is a record and not a block. -/
def atRecordBody : Fragment Bool := do
  if TokenSet.identifierNames.contains (← ahead 1) then
    if (← ahead 2) = .colon then return (← ahead 3) != .colon
  return false

/-- A name, a record `Type { ... }`, or an array `scalar [ ... ]`.  Before a bracket any other name
    is a name, and the bracket an index. -/
def namePrimary : Fragment Unit := do
  let isArray ←
    if (← ahead 1) = .lBracket then pure (scalarTypeNames.contains (← currentText))
    else pure false
  if isArray then
    node .arrayLiteral do
      bump
      delimited .array
  else if (← ahead 1) = .lCurly then
    node .recordLiteral do
      bump
      delimited .record
  else node .nameRef bump

/-- An expression without operators and accessors. -/
def primary : Fragment Unit := do
  match ← current with
  | .identifier => namePrimary
  | .hash =>
    node .refLiteral do
      bump
      identifier "a name after `#`"
  | .lCurly => node .recordLiteral (delimited .record)
  | .lBracket => node .arrayLiteral (delimited .array)
  | .lParen =>
    if ← atFnLiteral then node .fnLiteral (call .fnTail)
    else node .parenExpr (enclosed .paren "parenthesized expression" (call .expr))
  | kind =>
    if TokenSet.literals.contains kind then node .literal bump
    else missing .expectedExpression "an expression"

/-- Reads `name : expr` -/
def recordProp : Fragment Unit :=
  node .recordProp do
    bump
    if ← expect .colon "`:` after the property name" then call .expr

/-! ## Accessors -/

/-- What may follow a primary expression. -/
inductive Accessor where
  | field
  | static
  | index
  | arguments
  | nonNull
  deriving DecidableEq, Repr

/-- The node of an accessor. -/
def Accessor.kind : Accessor → Kind
  | field => .fieldAccess
  | static => .staticAccess
  | index => .indexAccess
  | arguments => .callArgs
  | nonNull => .nonNullAssert

/-- The accessor that starts here. -/
def accessorHere : Fragment (Option Accessor) := do
  match ← current with
  | .dot => return some .field
  | .colon => if (← ahead 1) = .colon then return some .static else return none
  | .lBracket => return some .index
  | .lParen => return some .arguments
  | .exclMark => return some .nonNull
  | _ => return none

/-- A member may have any word as its name. -/
def memberName (after : String) : Fragment Unit := do
  if ← isAtAny .identifierNames then bump
  else missing .expectedIdentifier ("a member name after " ++ after)

/-- One accessor. -/
def accessor (a : Accessor) : Fragment Unit :=
  node a.kind <|
    match a with
    | .field => do
      bump
      memberName "`.`"
    | .static => do
      bump
      bump
      memberName "`::`"
    | .index => enclosed .bracket "index" (call .expr)
    | .arguments => delimited .callArgs
    | .nonNull => bump

/-- Reads `accessor*`; the first one makes the node of all, unless that is open already. -/
def accessors (wrapped : Bool) : Fragment Unit := do
  if let some a ← accessorHere then
    if wrapped then
      accessor a
      call (.accessors true)
    else
      wrap .memberExpr do
        accessor a
        call (.accessors true)

/-! ## Operators -/

/-- Reads `new? primary accessor*` -/
def member : Fragment Unit :=
  group do
    if ← isAt .kwNew then
      node .memberExpr do
        bump
        call .primary
        call (.accessors true)
    else
      call .primary
      call (.accessors false)

/-- Reads `member (++ | --)?` -/
def operand : Fragment Unit :=
  group do
    member
    if ← isAtAny .postfixOps then wrap .postfixExpr bump

/-- The operand after operators, which may be missing. -/
def prefixOperand : Fragment Unit := do
  if ← isAtAny .primaryFirst then call .operand
  else unless ← exhausted do
    missing .expectedExpression "an operand after the prefix operator"

/-- Reads `(! | + | -)* operand`.  The second operator is reported, and nested all the same. -/
def prefixes (count : Nat) : Fragment Unit := do
  if ← isAtAny .prefixOps then
    if count = 1 then complain .chainedPrefixOperator none none
    let granted ← deeper <| node .prefixExpr do
      bump
      call (.prefixes (count + 1))
    unless granted do prefixOperand
  else prefixOperand

/-- Reads `(! | + | -)? operand` -/
def unary : Fragment Unit := do
  if ← isAtAny .prefixOps then call (.prefixes 0) else call .operand

/-- Reads `unary (op chain | is Name)?`; each operator is one level deeper. -/
def chain : Fragment Unit := do
  unary
  let kind ← current
  if TokenSet.binaryOps.contains kind then
    let _ ← deeper <| wrap .binaryExpr do
      bump
      if ← isAtAny .exprFirst then group (call .chain)
      else missing .expectedExpression "an operand after the operator"
  else if kind = .kwIs then
    wrap .isExpr do
      bump
      unless ← eat .identifier do missing .expectedTypeName "a type name after `is`"

/-- An expression. -/
def expr : Fragment Unit := do
  if ← isAtAny .exprFirst then
    let _ ← deeper (group (call .chain))
  else missing .expectedExpression "an expression"

end ScriptTree.Grammar
