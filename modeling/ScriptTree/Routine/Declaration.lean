import ScriptTree.Grammar.Declaration
import ScriptTree.Parser
import ScriptTree.Routine.Statement

/-!
# Routines of declarations and programs

`Routine.run` carries a routine out with calls nested to a bounded depth, like `Rule.run` does for
rules.  `parseBuilding` parses a source text on a builder.
-/

namespace ScriptTree.Routine

open Action

variable (c : Callees)

/-- The types after a name.  Without the colon they are read if a name stands here. -/
def ascription (what : String) : Action Unit := do
  let hasColon ← expect .colon what
  if ← pure hasColon <||> isAt .identifier then c.routine .typeList

/-! ## Functions -/

/-- Reads `name : types` -/
def parseParam : Action Unit := do
  startNode .param
  bump
  ascription c "`:` after the parameter name"
  finishNode

/-- Reads `( params ) (: types)? { ... }` -/
def parseFnTail : Action Unit := do
  if ← isAt .lParen then
    startNode .paramList
    parseDelimited c .params
    finishNode
  else require .lParen "`(` to start the parameter list"
  if ← eat .colon then c.routine .typeList
  c.routine (.block false)

/-- Reads `function name ( params ) (: types)? { ... }` -/
def parseFnDecl : Action Unit := do
  assertAt .kwFunction
  startNode .fnDecl
  bump
  identifier "a function name"
  c.routine .fnTail
  finishNode

/-! ## Types -/

/-- Reads `name : types (= expr)?` -/
def parseAttrDecl : Action Unit := do
  startNode .attrDecl
  bump
  ascription c "`:` after the attribute name"
  if ← isAt .eq then c.routine .initializer
  finishNode

/-- Reads `(private static? | static private?)? (function ... | attribute) ;?` -/
def parseTypeMember : Action Unit := do
  startNode .typeMember
  match ← current with
  | .kwPrivate =>
    bump
    optionally .kwStatic
  | .kwStatic =>
    bump
    optionally .kwPrivate
  | _ => pure ()
  match ← current with
  | .kwFunction => c.routine .fnDecl
  | .identifier => parseAttrDecl c
  | _ => missing .expectedIdentifier "an attribute or function declaration"
  optionally .semiColon
  finishNode

/-- An error node up to the next member of a type, with the semicolon there. -/
def recoverMember : Action Unit := do
  startNode .error
  missing .unexpectedToken "an attribute or function declaration"
  bump
  c.discard .typeMemberSync
  optionally .semiColon
  finishNode

/-- The members of a type body up to the closing brace. -/
def members : Action Unit := do
  if ← stopped then return
  match ← current with
  | .rCurly => return
  | .semiColon =>
    remark .redundantSemicolon
    bump
  | kind =>
    if TokenSet.typeMemberFirst.contains kind then c.routine .typeMember
    else recoverMember c
  c.members

/-- Reads `open? type Name { member* }` -/
def parseTypeDecl : Action Unit := do
  startNode .typeDecl
  optionally .kwOpen
  require .kwType "`type`"
  identifier "a type name"
  unless ← isAt .lCurly do
    require .lCurly "`\x7b` to start the type body"
    finishNode
    return
  pushDelimiter .curly
  bump
  c.members
  closeDelimiter .curly "type body"
  finishNode

/-! ## Programs -/

/-- Reads `import "path" ;?` -/
def parseImport : Action Unit := do
  assertAt .kwImport
  startNode .importDecl
  bump
  if ← isAtAny .stringLiterals then bump
  else missing .expectedImportPath "a string literal"
  optionally .semiColon
  finishNode

/-- An error node up to the next item. -/
def recoverItem : Action Unit := do
  startNode .error
  missing .expectedStatement "a declaration or statement"
  bump
  c.discard .itemSync
  finishNode

/-- One item. -/
def parseItem : Action Unit := do
  match ← current with
  | .kwFunction => c.routine .fnDecl
  | .kwOpen | .kwType => c.routine .typeDecl
  | .kwImport =>
    complain .unexpectedToken (some "imports must precede all other items") none
    c.routine .importDecl
  | kind =>
    if TokenSet.stmtFirst.contains kind then c.routine .statement else recoverItem c

/-- Reads `import*` -/
def imports : Action Unit := do
  unless ← stopped do
    if ← isAt .kwImport then
      c.routine .importDecl
      c.imports

/-- Reads `(item ;?)*` -/
def items : Action Unit := do
  unless ← stopped do
    if ← isAt .semiColon then
      remark .redundantSemicolon
      bump
      c.items
    else
      c.routine .item
      optionally .semiColon
      c.items

/-- Reads `import* (item ;?)*`, and the skipped tokens at the end. -/
def parseRoot : Action Unit := do
  startNode .program
  c.imports
  c.items
  flush
  finishNode

/-! ## Runs -/

/-- What a routine does. -/
def action : Routine → Action Unit
  | root => parseRoot c
  | item => parseItem c
  | itemRecovery => recoverItem c
  | importDecl => parseImport
  | fnDecl => parseFnDecl c
  | fnTail => parseFnTail c
  | param => parseParam c
  | typeDecl => parseTypeDecl c
  | typeMember => parseTypeMember c
  | attrDecl => parseAttrDecl c
  | memberRecovery => recoverMember c
  | statement => parseStatement c
  | block asStatement => parseBlock c asStatement
  | statementList => do let _ ← statements c 0
  | statementRecovery => recoverStatement c
  | ifStmt terminated => parseIfStmt c terminated
  | whileStmt => parseWhileStmt c
  | condition keyword => parseCondition c keyword
  | forStmt => parseForStmt c
  | varStmt => parseVarStmt c
  | initializer => parseInitializer c
  | returnStmt => parseReturnStmt c
  | exprStmt terminated => parseExprStmt c terminated
  | expr => parseExpr c
  | unary => parseUnary c
  | operand => parseOperand c
  | member => parseMember c
  | accessor a => parseAccessor c a
  | memberName after => parseMemberName after
  | primary => parsePrimary c
  | namePrimary => parseNamePrimary c
  | refLiteral => parseRefLiteral
  | recordProp => parseRecordProp c
  | parenExpr => parseParenExpr c
  | delimited form => parseDelimited c form
  | typeList => parseTypeList c
  | typeName => parseTypeName c
  | typeArgs => parseTypeArgs c

end ScriptTree.Routine

namespace ScriptTree

/-- What can be called if calls may nest `budget` deep. -/
def Callees.upTo : (budget : Nat) → Callees
  | 0 => .none
  | budget + 1 =>
    -- Nothing is made ready before it is called.
    { routine := fun r g b => r.action (upTo budget) g b
      imports := fun g b => Routine.imports (upTo budget) g b
      items := fun g b => Routine.items (upTo budget) g b
      members := fun g b => Routine.members (upTo budget) g b
      statements := fun count g b => Routine.statements (upTo budget) count g b
      elements := fun form g b => Routine.elements (upTo budget) form g b
      operators := fun nested mark g b => Routine.operators (upTo budget) nested mark g b
      prefixes := fun nested g b => Routine.prefixes (upTo budget) nested g b
      accessors := fun wrapped mark g b => Routine.accessors (upTo budget) wrapped mark g b
      unionTail := fun g b => Routine.unionTail (upTo budget) g b
      typeArgTail := fun g b => Routine.typeArgTail (upTo budget) g b
      discard := fun stops g b => Routine.discard (upTo budget) stops g b
      skipTo := fun stops g b => Routine.skipTo (upTo budget) stops g b }

/-- Carry a routine out, with calls nested at most `budget` deep. -/
def Routine.run (budget : Nat) (r : Routine) : Action Unit := (Callees.upTo budget).routine r

/-- What the last state of a builder amounts to. -/
def Build.outcome (source : String) (b : Build) : Outcome :=
  match b.exhausted with
  | some resource => .ok (.error (.exhausted resource))
  | none =>
    if b.halted then .ok (.error (.failed b.diagnostics.toList))
    else do
      let tree ← b.tree
      if tree.text = source then return .ok ⟨tree, b.diagnostics.toList⟩
      else throw .lossy

/-- Parse the tokens of a source, trivia included, on a builder. -/
def parseLexedBuilding (o : Options) (source : String) (tokens : List Token) : Outcome := do
  let setting : Setting := ⟨Text.byteLength source.toList, o.recovery, o.depthLimit⟩
  let (_, b) ← Routine.root.run (callBudget tokens) setting (.initial tokens o.stepLimit)
  b.outcome source

/-- Parse a source text on a builder. -/
def parseBuilding (o : Options) (source : String) : Outcome :=
  parseLexedBuilding o source (Token.lex source)

end ScriptTree
