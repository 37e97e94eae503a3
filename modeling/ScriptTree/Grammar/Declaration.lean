import ScriptTree.Grammar.Statement

/-!
# Declarations and programs

A program is a list of imports and then of items: functions, types and statements.  One semicolon
more is allowed after any item.
-/

namespace ScriptTree.Grammar

open Fragment

/-- The types after a name.  Without the colon they are read if a name stands here. -/
def ascription (what : String) : Fragment Unit := do
  if ← expect .colon what then call .typeList
  else if ← isAt .identifier then call .typeList

/-! ## Functions -/

/-- Reads `name : types` -/
def param : Fragment Unit :=
  node .param do
    bump
    ascription "`:` after the parameter name"

/-- Reads `( params ) (: types)? { ... }` -/
def fnTail : Fragment Unit := do
  if ← isAt .lParen then node .paramList (delimited .params)
  else require .lParen "`(` to start the parameter list"
  if ← eat .colon then call .typeList
  call .body

/-- Reads `function name ( params ) (: types)? { ... }` -/
def fnDecl : Fragment Unit := do
  entered .kwFunction
  node .fnDecl do
    bump
    identifier "a function name"
    call .fnTail

/-! ## Types -/

/-- Reads `name : types (= expr)?` -/
def attrDecl : Fragment Unit :=
  node .attrDecl do
    bump
    ascription "`:` after the attribute name"
    if ← isAt .eq then call .initializer

/-- Reads `(private static? | static private?)? (function ... | attribute) ;?` -/
def typeMember : Fragment Unit :=
  node .typeMember do
    match ← current with
    | .kwPrivate =>
      bump
      optionally .kwStatic
    | .kwStatic =>
      bump
      optionally .kwPrivate
    | _ => pure ()
    match ← current with
    | .kwFunction => call .fnDecl
    | .identifier => attrDecl
    | _ => missing .expectedIdentifier "an attribute or function declaration"
    optionally .semiColon

/-- The members of a type body up to the closing brace. -/
def members : Fragment Unit := do
  unless ← stopped do
    match ← current with
    | .rCurly => return
    | .semiColon =>
      remark .redundantSemicolon
      bump
    | kind =>
      if TokenSet.typeMemberFirst.contains kind then call .member
      else
        setAside .unexpectedToken "an attribute or function declaration" .typeMemberSync
          (optionally .semiColon)
    call .members

/-- Reads `open? type Name { member* }` -/
def typeDecl : Fragment Unit :=
  node .typeDecl do
    optionally .kwOpen
    require .kwType "`type`"
    identifier "a type name"
    if ← isAt .lCurly then enclosed .curly "type body" (call .members)
    else require .lCurly "`\x7b` to start the type body"

/-! ## Programs -/

/-- Reads `import "path" ;?` -/
def importDecl : Fragment Unit := do
  entered .kwImport
  node .importDecl do
    bump
    if ← isAtAny .stringLiterals then bump
    else missing .expectedImportPath "a string literal"
    optionally .semiColon

/-- One item, or an error node up to the next one. -/
def item : Fragment Unit := do
  match ← current with
  | .kwFunction => call .fnDecl
  | .kwOpen | .kwType => call .typeDecl
  | .kwImport =>
    complain .unexpectedToken (some "imports must precede all other items") none
    call .importDecl
  | kind =>
    if TokenSet.stmtFirst.contains kind then call .statement
    else setAside .expectedStatement "a declaration or statement" .itemSync (pure ())

/-- Reads `import*` -/
def imports : Fragment Unit := do
  unless ← stopped do
    if ← isAt .kwImport then
      call .importDecl
      call .imports

/-- Reads `(item ;?)*` -/
def items : Fragment Unit := do
  unless ← stopped do
    if ← isAt .semiColon then
      remark .redundantSemicolon
      bump
    else
      call .item
      optionally .semiColon
    call .items

/-- Reads `import* (item ;?)*`, and the skipped tokens at the end. -/
def program : Fragment Unit := do
  call .imports
  call .items
  flush

/-- Tokens up to the end or one of a set. -/
def discard (stops : TokenSet) : Fragment Unit := do
  unless ← stopped do
    unless ← isAtAny stops do
      bump
      call (.discard stops)

/-- Tokens up to one of a set or the end. -/
def skipTo (stops : TokenSet) : Fragment Unit := do
  unless ← isAtAny stops do
    unless ← stopped do
      bump
      call (.skipTo stops)

end ScriptTree.Grammar

namespace ScriptTree.Rule

/-- What a rule does. -/
def script : Rule → Script
  | program => Grammar.program.unit
  | imports => Grammar.imports.unit
  | items => Grammar.items.unit
  | item => Grammar.item.unit
  | importDecl => Grammar.importDecl.unit
  | fnDecl => Grammar.fnDecl.unit
  | fnTail => Grammar.fnTail.unit
  | param => Grammar.param.unit
  | typeDecl => Grammar.typeDecl.unit
  | members => Grammar.members.unit
  | member => Grammar.typeMember.unit
  | statements seen => (Grammar.statements seen).script
  | statement => Grammar.statement.unit
  | block => Grammar.block.unit
  | body => Grammar.body.unit
  | ifStmt terminated => (Grammar.ifStmt terminated).unit
  | initializer => Grammar.initializer.unit
  | expr => Grammar.expr.unit
  | chain => Grammar.chain.unit
  | prefixes count => (Grammar.prefixes count).unit
  | operand => Grammar.operand.unit
  | accessors wrapped => (Grammar.accessors wrapped).unit
  | primary => Grammar.primary.unit
  | elements form => (Grammar.elements form).unit
  | recordProp => Grammar.recordProp.unit
  | typeList => Grammar.typeList.unit
  | unionTail => Grammar.unionTail.unit
  | typeName => Grammar.typeName.unit
  | typeArgTail => Grammar.typeArgTail.unit
  | discard stops => (Grammar.discard stops).unit
  | skipTo stops => (Grammar.skipTo stops).unit

/-- Run a rule, with calls nested at most `budget` deep. -/
def run (g : Setting) : (budget : Nat) → Rule → State → Reply
  | 0, _, _ => .error .runaway
  | budget + 1, rule, s => rule.script.run g (run g budget) s

end ScriptTree.Rule
