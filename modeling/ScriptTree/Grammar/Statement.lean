import ScriptTree.Grammar.Expression

/-!
# Statements

A statement owns the semicolon after it.  Of an `if` with further `else if`s only the first one
does, and a block does only where it is a statement by itself.
-/

namespace ScriptTree.Grammar

open Fragment

/-- Reads `= expr` -/
def initializer : Fragment Unit := do
  entered .eq
  node .initializer do
    bump
    call .expr

/-- An expression as a statement, or without its semicolon in the head of a loop. -/
def exprStmt (terminated : Bool) : Fragment Unit :=
  node .exprStmt do
    call .expr
    if terminated then optionally .semiColon

/-- An error node up to the next boundary of a statement, with the semicolon there. -/
def recoverStatement : Fragment Unit :=
  setAside .expectedStatement "a statement" .stmtSync (optionally .semiColon)

/-- Reads `{ statement+ } ;?` -/
def block : Fragment Unit :=
  node .block do
    if ← isAt .lCurly then
      enclosedNonempty .curly "block" .emptyBlock (ask (.statements false))
      optionally .semiColon
    else require .lCurly "`\x7b` to start a block"

/-- Reads `{ statement* }` -/
def body : Fragment Unit :=
  node .logicBlock do
    if ← isAt .lCurly then enclosed .curly "block" (call (.statements false))
    else require .lCurly "`\x7b` to start a block"

/-- Reads `statement*` up to the closing brace.  Declarations do not belong here; they are reported,
    and functions and types count as statements.  Answers whether there was a statement. -/
def statements (seen : Bool) : Fragment Bool := do
  if ← stopped then return seen
  match ← current with
  | .rCurly => return seen
  | .semiColon =>
    remark .redundantSemicolon
    bump
    ask (.statements seen)
  | .kwFunction =>
    complain .unexpectedToken
      (some "functions can only be declared at top level or in a type body") none
    call .fnDecl
    ask (.statements true)
  | .kwOpen | .kwType =>
    complain .unexpectedToken (some "types can only be declared at top level") none
    call .typeDecl
    ask (.statements true)
  | .kwImport =>
    complain .unexpectedToken (some "imports must precede all other items") none
    call .importDecl
    ask (.statements seen)
  | kind =>
    if TokenSet.stmtFirst.contains kind then
      call .statement
      ask (.statements true)
    else
      recoverStatement
      ask (.statements seen)

/-- Reads `( expr )` after a keyword. -/
def condition (keyword : String) : Fragment Unit := do
  require .lParen ("`(` after `" ++ keyword ++ "`")
  call .expr
  require .rParen "`)` after the condition"

/-- Reads `if ( expr ) { ... } (else (if ... | { ... }))? ;?` -/
def ifStmt (terminated : Bool) : Fragment Unit := do
  entered .kwIf
  node .ifStmt do
    bump
    condition "if"
    call .body
    if ← isAt .kwElse then
      node .elseClause do
        bump
        if ← isAt .kwIf then
          let _ ← deeper (call (.ifStmt false))
        else call .body
    if terminated then optionally .semiColon

/-- Reads `while ( expr ) { ... } ;?` -/
def whileStmt : Fragment Unit :=
  node .whileStmt do
    bump
    condition "while"
    call .body
    optionally .semiColon

/-- Reads `for ( name = expr ; expr ; expr ) { ... } ;?` -/
def forStmt : Fragment Unit :=
  node .forStmt do
    bump
    require .lParen "`(` after `for`"
    identifier "a loop variable"
    require .eq "`=` after the loop variable"
    call .expr
    require .semiColon "`;` after the loop initializer"
    call .expr
    require .semiColon "`;` after the loop condition"
    if ← isAtAny .exprFirst then exprStmt false
    else missing .expectedExpression "a loop update"
    require .rParen "`)` to close the loop header"
    call .body
    optionally .semiColon

/-- What stands in place of the name of a variable: everything up to its type or value. -/
def missingVariable : Fragment Unit := do
  let complaint := missing .expectedIdentifier "a variable name"
  if ← isAtAny .varNameRecovery then complaint
  else if ← stopped then complaint
  else
    node .error do
      complaint
      call (.skipTo .varNameRecovery)

/-- Reads `var name (: types)? (= expr)? ;?` -/
def varStmt : Fragment Unit :=
  node .varStmt do
    bump
    unless ← eat .identifier do missingVariable
    if ← eat .colon then call .typeList
    if ← isAt .eq then call .initializer
    optionally .semiColon

/-- Reads `return expr ;?` -/
def returnStmt : Fragment Unit :=
  node .returnStmt do
    bump
    call .expr
    optionally .semiColon

/-- One statement. -/
def statement : Fragment Unit := do
  let _ ← deeper do
    match ← current with
    | .lCurly => if ← atRecordBody then exprStmt true else call .block
    | .kwIf => call (.ifStmt true)
    | .kwWhile => whileStmt
    | .kwFor => forStmt
    | .kwVar => varStmt
    | .kwReturn => returnStmt
    | kind => if TokenSet.exprFirst.contains kind then exprStmt true else recoverStatement

end ScriptTree.Grammar
