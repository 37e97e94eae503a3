import ScriptTree.Routine

/-!
# Routines of expressions

A node whose need shows late is opened at the checkpoint of its first operand.  Operators nest to
the right, so `parseExpr` opens one node after the other, each at the checkpoint of its own left
operand, and closes all of them at the end of the chain.
-/

namespace ScriptTree.Routine

open Action

variable (c : Callees)

/-! ## Types -/

/-- Reads `type (| type)*` -/
def parseTypeList : Action Unit := do
  startNode .typeList
  c.routine .typeName
  c.unionTail
  finishNode

/-- Reads `(| type)*` -/
def unionTail : Action Unit := do
  if ← eat .pipe then
    c.routine .typeName
    c.unionTail

/-- Reads `< types (, types)* >` -/
def parseTypeArgs : Action Unit := do
  startNode .typeArgs
  bump
  c.routine .typeList
  c.typeArgTail
  require .greater "`>` to close the type arguments"
  finishNode

/-- Reads `(, types)*` -/
def typeArgTail : Action Unit := do
  if ← eat .comma then
    c.routine .typeList
    c.typeArgTail

/-- A name with type arguments if there are any. -/
def parseTypeName : Action Unit := do
  unless ← isAt .identifier do
    missing .expectedTypeName "a type name"
    return
  unless ← enterLevel do return
  startNode .typeName
  bump
  if ← isAt .less then parseTypeArgs c
  finishNode
  leaveLevel

/-! ## Lists -/

/-- The routine of an element. -/
def ofElement : ListForm → Routine
  | .params => .param
  | .callArgs | .array => .expr
  | .record => .recordProp

/-- An error node of the current token, unless there is none. -/
def bumpAsError : Action Unit := do
  unless ← atEnd do
    startNode .error
    bump
    finishNode

/-- The elements of a list.  A missing comma is reported and taken as read.  Stray tokens become
    error nodes one by one, up to the closer or a token that ends lists anyway. -/
def elements (form : ListForm) : Action Unit := do
  if ← stopped then return
  let kind ← current
  if kind = form.closing.closer then return
  if form.first.contains kind then
    c.routine (ofElement form)
    if ← eat .comma then c.elements form
    else if ← isAtAny form.first then
      require .comma "`,` between list elements"
      c.elements form
  else if kind ≠ .comma ∧ TokenSet.listStop.contains kind then return
  else
    missing form.problem form.elementName
    bumpAsError
    c.elements form

/-- Reads `open (element (, element)* ,?)? close` -/
def parseDelimited (form : ListForm) : Action Unit := do
  assertAt form.opening.opener
  pushDelimiter form.opening
  bump
  c.elements form
  closeDelimiter form.closing form.construct

/-! ## Primary expressions -/

/-- Does `( )` or `( name : T` start here, where `T` is no second colon? -/
def atFnLiteral : Action Bool := do
  match ← ahead 1 with
  | .rParen => return true
  | .identifier =>
    if (← ahead 2) = .colon then return (← ahead 3) != .colon
    else return false
  | _ => return false

/-- Does `{ name :` start here, without a second colon? -/
def atRecordBody : Action Bool := do
  if TokenSet.identifierNames.contains (← ahead 1) then
    if (← ahead 2) = .colon then return (← ahead 3) != .colon
  return false

/-- What a name at the start of a primary expression begins. -/
inductive NameForm where
  | array
  | record
  | reference
  deriving DecidableEq, Repr

/-- The node that a name begins. -/
def NameForm.kind : NameForm → Kind
  | array => .arrayLiteral
  | record => .recordLiteral
  | reference => .nameRef

/-- A name before a bracket begins an array if it is the name of a scalar type, and before a brace
    a record. -/
def nameForm : Action NameForm := do
  let isArray ←
    if (← ahead 1) = .lBracket then pure (scalarTypeNames.contains (← currentText))
    else pure false
  if isArray then return .array
  else if (← ahead 1) = .lCurly then return .record
  else return .reference

/-- A name, a record `Type { ... }`, or an array `scalar [ ... ]`. -/
def parseNamePrimary : Action Unit := do
  let form ← nameForm
  startNode form.kind
  bump
  match form with
  | .array => parseDelimited c .array
  | .record => parseDelimited c .record
  | .reference => pure ()
  finishNode

/-- Reads `# name` -/
def parseRefLiteral : Action Unit := do
  startNode .refLiteral
  bump
  identifier "a name after `#`"
  finishNode

/-- Reads `( expr )` -/
def parseParenExpr : Action Unit := do
  startNode .parenExpr
  pushDelimiter .paren
  bump
  c.routine .expr
  closeDelimiter .paren "parenthesized expression"
  finishNode

/-- An expression without operators and accessors. -/
def parsePrimary : Action Unit := do
  match ← current with
  | .identifier => parseNamePrimary c
  | .hash => parseRefLiteral
  | .lCurly =>
    startNode .recordLiteral
    parseDelimited c .record
    finishNode
  | .lBracket =>
    startNode .arrayLiteral
    parseDelimited c .array
    finishNode
  | .lParen =>
    if ← atFnLiteral then
      startNode .fnLiteral
      c.routine .fnTail
      finishNode
    else parseParenExpr c
  | kind =>
    if TokenSet.literals.contains kind then
      startNode .literal
      bump
      finishNode
    else missing .expectedExpression "an expression"

/-- Reads `name : expr` -/
def parseRecordProp : Action Unit := do
  startNode .recordProp
  bump
  if ← expect .colon "`:` after the property name" then c.routine .expr
  finishNode

/-! ## Accessors -/

/-- The accessor that starts here. -/
def accessorHere : Action (Option Grammar.Accessor) := do
  match ← current with
  | .dot => return some .field
  | .colon => if (← ahead 1) = .colon then return some .static else return none
  | .lBracket => return some .index
  | .lParen => return some .arguments
  | .exclMark => return some .nonNull
  | _ => return none

/-- A member may have any word as its name. -/
def parseMemberName (after : String) : Action Unit := do
  if ← isAtAny .identifierNames then bump
  else missing .expectedIdentifier ("a member name after " ++ after)

/-- One accessor. -/
def parseAccessor (a : Grammar.Accessor) : Action Unit := do
  startNode a.kind
  match a with
  | .field =>
    bump
    parseMemberName "`.`"
  | .static =>
    bump
    bump
    parseMemberName "`::`"
  | .index =>
    pushDelimiter .bracket
    bump
    c.routine .expr
    closeDelimiter .bracket "index"
  | .arguments => parseDelimited c .callArgs
  | .nonNull => bump
  finishNode

/-- Reads `accessor*`; the first one opens the node of all, unless that is open already. -/
def accessors (wrapped : Bool) (mark : Nat) : Action Bool := do
  let some a ← accessorHere | return wrapped
  unless wrapped do startNodeAt mark .memberExpr
  parseAccessor c a
  c.accessors true mark

/-! ## Operators -/

/-- Reads `new? primary accessor*` -/
def parseMember : Action Unit := do
  let mark ← checkpoint
  let isNew ← isAt .kwNew
  if isNew then
    startNode .memberExpr
    bump
  c.routine .primary
  if ← c.accessors isNew mark then finishNode

/-- Reads `member (++ | --)?` -/
def parseOperand : Action Unit := do
  let mark ← checkpoint
  parseMember c
  if ← isAtAny .postfixOps then
    startNodeAt mark .postfixExpr
    bump
    finishNode

/-- The operand after operators, which may be missing. -/
def prefixOperand : Action Unit := do
  if ← isAtAny .primaryFirst then c.routine .operand
  else unless ← exhausted do
    missing .expectedExpression "an operand after the prefix operator"

/-- Reads `(! | + | -)* operand` and leaves the nodes of the operators open.  The second operator is
    reported, and nested all the same. -/
def prefixes (nested : Nat) : Action Nat := do
  unless ← isAtAny .prefixOps do
    prefixOperand c
    return nested
  if nested = 1 then complain .chainedPrefixOperator none none
  unless ← enterLevel do
    prefixOperand c
    return nested
  startNode .prefixExpr
  bump
  c.prefixes (nested + 1)

/-- Reads `(! | + | -)? operand` -/
def parseUnary : Action Unit := do
  unless ← isAtAny .prefixOps do
    c.routine .operand
    return
  let nested ← c.prefixes 0
  closeLevels nested

/-- Reads `unary (op unary)* (is Name)?` and leaves the nodes of the operators open, each of them
    one level deeper. -/
def operators (nested mark : Nat) : Action Nat := do
  parseUnary c
  let kind ← current
  if TokenSet.binaryOps.contains kind then
    unless ← enterLevel do return nested
    startNodeAt mark .binaryExpr
    bump
    unless ← isAtAny .exprFirst do
      missing .expectedExpression "an operand after the operator"
      return nested + 1
    let mark ← checkpoint
    c.operators (nested + 1) mark
  else if kind = .kwIs then
    startNodeAt mark .isExpr
    bump
    unless ← eat .identifier do missing .expectedTypeName "a type name after `is`"
    finishNode
    return nested
  else return nested

/-- An expression. -/
def parseExpr : Action Unit := do
  unless ← isAtAny .exprFirst do
    missing .expectedExpression "an expression"
    return
  unless ← enterLevel do return
  let mark ← checkpoint
  let nested ← c.operators 0 mark
  closeLevels nested
  leaveLevel

end ScriptTree.Routine
