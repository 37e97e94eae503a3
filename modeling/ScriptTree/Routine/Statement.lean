import ScriptTree.Grammar.Statement
import ScriptTree.Routine.Expression

/-!
# Routines of statements
-/

namespace ScriptTree.Routine

open Action

variable (c : Callees)

/-- Tokens up to the end or one of a set. -/
def discard (stops : TokenSet) : Action Unit := do
  unless ← stopped do
    unless ← isAtAny stops do
      bump
      c.discard stops

/-- Tokens up to one of a set or the end. -/
def skipTo (stops : TokenSet) : Action Unit := do
  unless ← isAtAny stops do
    unless ← stopped do
      bump
      c.skipTo stops

/-- Reads `= expr` -/
def parseInitializer : Action Unit := do
  assertAt .eq
  startNode .initializer
  bump
  c.routine .expr
  finishNode

/-- An expression as a statement, or without its semicolon in the head of a loop. -/
def parseExprStmt (terminated : Bool) : Action Unit := do
  startNode .exprStmt
  c.routine .expr
  if terminated then optionally .semiColon
  finishNode

/-- An error node up to the next boundary of a statement, with the semicolon there. -/
def recoverStatement : Action Unit := do
  startNode .error
  missing .expectedStatement "a statement"
  bump
  c.discard .stmtSync
  optionally .semiColon
  finishNode

/-- Reads `statement*` up to the closing brace.  Declarations do not belong here; they are reported,
    and functions and types count as statements. -/
def statements (count : Nat) : Action Nat := do
  if ← stopped then return count
  match ← current with
  | .rCurly => return count
  | .semiColon =>
    remark .redundantSemicolon
    bump
    c.statements count
  | .kwFunction =>
    complain .unexpectedToken
      (some "functions can only be declared at top level or in a type body") none
    c.routine .fnDecl
    c.statements (count + 1)
  | .kwOpen | .kwType =>
    complain .unexpectedToken (some "types can only be declared at top level") none
    c.routine .typeDecl
    c.statements (count + 1)
  | .kwImport =>
    complain .unexpectedToken (some "imports must precede all other items") none
    c.routine .importDecl
    c.statements count
  | kind =>
    if TokenSet.stmtFirst.contains kind then
      c.routine .statement
      c.statements (count + 1)
    else
      recoverStatement c
      c.statements count

/-- Reads `{ statement+ } ;?` for a statement and `{ statement* }` for the body of something. -/
def parseBlock (asStatement : Bool) : Action Unit := do
  startNode (if asStatement then .block else .logicBlock)
  unless ← isAt .lCurly do
    require .lCurly "`\x7b` to start a block"
    finishNode
    return
  -- Taken before the opener is consumed: a report on an empty block covers the whole of it.
  let opener ← currentSpan
  pushDelimiter .curly
  bump
  let count ← c.statements 0
  closeDelimiter .curly "block"
  if asStatement then
    if count = 0 then remarkSince .emptyBlock opener
    optionally .semiColon
  finishNode

/-- Reads `( expr )` after a keyword. -/
def parseCondition (keyword : String) : Action Unit := do
  require .lParen ("`(` after `" ++ keyword ++ "`")
  c.routine .expr
  require .rParen "`)` after the condition"

/-- Reads `if ( expr ) { ... } (else (if ... | { ... }))? ;?` -/
def parseIfStmt (terminated : Bool) : Action Unit := do
  assertAt .kwIf
  startNode .ifStmt
  bump
  parseCondition c "if"
  c.routine (.block false)
  if ← isAt .kwElse then
    startNode .elseClause
    bump
    if ← isAt .kwIf then
      if ← enterLevel then
        c.routine (.ifStmt false)
        leaveLevel
    else c.routine (.block false)
    finishNode
  if terminated then optionally .semiColon
  finishNode

/-- Reads `while ( expr ) { ... } ;?` -/
def parseWhileStmt : Action Unit := do
  startNode .whileStmt
  bump
  parseCondition c "while"
  c.routine (.block false)
  optionally .semiColon
  finishNode

/-- Reads `for ( name = expr ; expr ; expr ) { ... } ;?` -/
def parseForStmt : Action Unit := do
  startNode .forStmt
  bump
  require .lParen "`(` after `for`"
  identifier "a loop variable"
  require .eq "`=` after the loop variable"
  c.routine .expr
  require .semiColon "`;` after the loop initializer"
  c.routine .expr
  require .semiColon "`;` after the loop condition"
  if ← isAtAny .exprFirst then parseExprStmt c false
  else missing .expectedExpression "a loop update"
  require .rParen "`)` to close the loop header"
  c.routine (.block false)
  optionally .semiColon
  finishNode

/-- What stands in place of the name of a variable: everything up to its type or value. -/
def recoverVariable : Action Unit := do
  if ← isAtAny .varNameRecovery then
    missing .expectedIdentifier "a variable name"
    return
  if ← stopped then
    missing .expectedIdentifier "a variable name"
    return
  startNode .error
  missing .expectedIdentifier "a variable name"
  c.skipTo .varNameRecovery
  finishNode

/-- Reads `var name (: types)? (= expr)? ;?` -/
def parseVarStmt : Action Unit := do
  startNode .varStmt
  bump
  unless ← eat .identifier do recoverVariable c
  if ← eat .colon then c.routine .typeList
  if ← isAt .eq then c.routine .initializer
  optionally .semiColon
  finishNode

/-- Reads `return expr ;?` -/
def parseReturnStmt : Action Unit := do
  startNode .returnStmt
  bump
  c.routine .expr
  optionally .semiColon
  finishNode

/-- One statement. -/
def parseStatement : Action Unit := do
  unless ← enterLevel do return
  match ← current with
  | .lCurly => if ← atRecordBody then parseExprStmt c true else c.routine (.block true)
  | .kwIf => c.routine (.ifStmt true)
  | .kwWhile => parseWhileStmt c
  | .kwFor => parseForStmt c
  | .kwVar => parseVarStmt c
  | .kwReturn => parseReturnStmt c
  | kind =>
    if TokenSet.exprFirst.contains kind then parseExprStmt c true else recoverStatement c
  leaveLevel

end ScriptTree.Routine
