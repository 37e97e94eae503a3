import ScriptTree.TokenSet

/-!
# Groups of tokens

The sets of tokens that the lexer and the grammar test for, and the abstract groups
(`TokenCategory`) a kind can belong to.  A kind may satisfy several groups: `+=` is an assignment
operator and a punctuator.
-/

namespace ScriptTree

namespace TokenSet

/-- Operators that assign. -/
def assignmentOps : TokenSet :=
  ofList [.eq, .plusEq, .minusEq, .asteriskEq, .percentEq, .slashEq]

/-- Operators that test for equality. -/
def equalityOps : TokenSet :=
  ofList [.eqEq, .exclMarkEq]

/-- Operators that compare, or combine truth values. -/
def relationalOps : TokenSet :=
  ofList [.less, .greater, .lessEq, .greaterEq, .ampAmp, .pipe, .pipePipe]

/-- Multiplication, division, remainder and power. -/
def multiplicativeOps : TokenSet :=
  ofList [.asterisk, .slash, .percent, .caret]

/-- Addition and subtraction. -/
def additiveOps : TokenSet :=
  ofList [.plus, .minus]

/-- Every operator that may stand between two operands. -/
def binaryOps : TokenSet :=
  assignmentOps ∪ equalityOps ∪ relationalOps ∪ multiplicativeOps ∪ additiveOps

/-- Delimiters, separators and operators. -/
def punctuators : TokenSet :=
  ofList [.lCurly, .rCurly, .lParen, .rParen, .lBracket, .rBracket, .dot, .hash, .comma, .colon,
    .semiColon, .exclMark, .plusPlus, .minusMinus]
    ∪ binaryOps

/-- Operators before an operand. -/
def prefixOps : TokenSet :=
  ofList [.exclMark, .plus, .minus]

/-- Operators after an operand. -/
def postfixOps : TokenSet :=
  ofList [.plusPlus, .minusMinus]

/-- The two truth values. -/
def booleanLiterals : TokenSet :=
  ofList [.kwTrue, .kwFalse]

/-- Strings on one line. -/
def stringLiterals : TokenSet :=
  ofList [.singleQuoted, .doubleQuoted]

/-- Tokens that are literals by themselves. -/
def literals : TokenSet :=
  ofList [.kwNull, .kwThis, .number, .backQuoted] ∪ booleanLiterals ∪ stringLiterals

/-- Reserved words that are no literals. -/
def keywords : TokenSet :=
  ofList [.kwVar, .kwStatic, .kwFunction, .kwOpen, .kwType, .kwNew, .kwReturn, .kwPrivate, .kwIf,
    .kwIs, .kwElse, .kwWhile, .kwFor, .kwImport]

/-- Words that may name a member or property, reserved or not. -/
def identifierNames : TokenSet :=
  ofList [.identifier, .kwNull, .kwThis] ∪ keywords ∪ booleanLiterals

/-- Comments of any form. -/
def comments : TokenSet :=
  ofList [.lineComment, .docComment, .blockComment]

/-- Tokens after which a `-` is a binary operator and not a sign. -/
def operandEnd : TokenSet :=
  ofList [.identifier, .number, .singleQuoted, .doubleQuoted, .backQuoted, .kwNull, .kwThis,
    .kwTrue, .kwFalse, .rParen, .rBracket, .rCurly, .plusPlus, .minusMinus, .exclMark]

/-- First tokens of a primary expression. -/
def primaryFirst : TokenSet :=
  ofList [.identifier, .hash, .lCurly, .lBracket, .lParen, .kwNew] ∪ literals

/-- First tokens of an expression. -/
def exprFirst : TokenSet :=
  primaryFirst ∪ prefixOps

/-- First tokens of a statement. -/
def stmtFirst : TokenSet :=
  ofList [.lCurly, .kwIf, .kwWhile, .kwFor, .kwVar, .kwReturn] ∪ exprFirst

/-- First tokens of a top-level item. -/
def itemFirst : TokenSet :=
  ofList [.kwFunction, .kwOpen, .kwType] ∪ stmtFirst

/-- First tokens of a member of a type body. -/
def typeMemberFirst : TokenSet :=
  ofList [.kwPrivate, .kwStatic, .kwFunction, .identifier]

/-- Keywords that can only start a statement or declaration: skipping stops before them. -/
def stmtKeywords : TokenSet :=
  ofList [.kwIf, .kwWhile, .kwFor, .kwVar, .kwReturn, .kwFunction, .kwOpen, .kwType, .kwImport]

/-- Where parsing resumes after a malformed statement. -/
def stmtRecovery : TokenSet :=
  ofList [.semiColon, .rCurly] ∪ stmtKeywords

/-- Where skipping stops inside a statement list. -/
def stmtSync : TokenSet :=
  stmtRecovery ∪ stmtFirst

/-- Where skipping stops at top level.  A closing brace is junk there, so it is skipped too. -/
def itemSync : TokenSet :=
  itemFirst ∪ ofList [.semiColon, .kwImport]

/-- A variable declaration without a name resumes at its type or its initial value. -/
def varNameRecovery : TokenSet :=
  ofList [.colon, .eq] ∪ stmtRecovery

/-- Where parsing resumes after a malformed member of a type body. -/
def typeMemberSync : TokenSet :=
  ofList [.semiColon, .rCurly, .kwPrivate, .kwStatic, .kwFunction, .identifier]

/-- Tokens that end a comma-separated list even when they are not its closer. -/
def listStop : TokenSet :=
  ofList [.semiColon, .rCurly, .rParen, .rBracket] ∪ stmtKeywords

end TokenSet

/-- Scalar types whose name before `[` makes a typed array literal. -/
def scalarTypeNames : List String := ["int", "long", "ulong", "double", "bool"]

/-- Abstract groups of tokens, the more specific first. -/
inductive TokenCategory where
  | assignmentOperator
  | equalityOperator
  | relationalOperator
  | multiplicativeOperator
  | additiveOperator
  | punctuator
  | booleanLiteral
  | stringLiteral
  | literal
  | keyword
  | identifierName
  | comment
  deriving DecidableEq, Repr

namespace TokenCategory

/-- Every group, in order. -/
def all : List TokenCategory :=
  [.assignmentOperator, .equalityOperator, .relationalOperator, .multiplicativeOperator,
   .additiveOperator, .punctuator, .booleanLiteral, .stringLiteral, .literal, .keyword,
   .identifierName, .comment]

/-- Spelling of a group in listings. -/
def name : TokenCategory → String
  | .assignmentOperator => "AssignmentOperator"
  | .equalityOperator => "EqualityOperator"
  | .relationalOperator => "RelationalOperator"
  | .multiplicativeOperator => "MultiplicativeOperator"
  | .additiveOperator => "AdditiveOperator"
  | .punctuator => "Punctuator"
  | .booleanLiteral => "BooleanLiteral"
  | .stringLiteral => "StringLiteral"
  | .literal => "Literal"
  | .keyword => "Keyword"
  | .identifierName => "IdentifierName"
  | .comment => "Comment"

/-- The kinds of a group. -/
def tokens : TokenCategory → TokenSet
  | .assignmentOperator => .assignmentOps
  | .equalityOperator => .equalityOps
  | .relationalOperator => .relationalOps
  | .multiplicativeOperator => .multiplicativeOps
  | .additiveOperator => .additiveOps
  | .punctuator => .punctuators
  | .booleanLiteral => .booleanLiterals
  | .stringLiteral => .stringLiterals
  | .literal => .literals
  | .keyword => .keywords
  | .identifierName => .identifierNames
  | .comment => .comments

end TokenCategory

namespace Kind

/-- Does the kind belong to the group? -/
def isIn (k : Kind) (c : TokenCategory) : Bool := c.tokens.contains k

/-- Every group the kind belongs to. -/
def categories (k : Kind) : List TokenCategory := TokenCategory.all.filter k.isIn

/-- How messages speak of a kind. -/
def describe (k : Kind) : String :=
  match k with
  | lCurly => "`\x7b`"
  | rCurly => "`\x7d`"
  | lParen => "`(`"
  | rParen => "`)`"
  | lBracket => "`[`"
  | rBracket => "`]`"
  | dot => "`.`"
  | hash => "`#`"
  | comma => "`,`"
  | colon => "`:`"
  | semiColon => "`;`"
  | exclMark => "`!`"
  | eq => "`=`"
  | less => "`<`"
  | greater => "`>`"
  | identifier => "identifier"
  | number => "number"
  | singleQuoted | doubleQuoted => "string literal"
  | backQuoted => "back-quoted literal"
  | _ =>
    if k.isIn .keyword then "keyword"
    else if k.isIn .punctuator then "operator"
    else "token"

end Kind

end ScriptTree
