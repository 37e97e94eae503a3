/-!
# Kinds of tokens and nodes

Every element of a syntax tree has a `Kind`.  The kinds of tokens come first, then `error`, then
the kinds of nodes, so that one comparison of indices (`isToken`) tells leaves from nodes.

* `Kind.all` lists the kinds in index order, `Kind.index` is the position in that list and
  `Kind.ofIndex?` reads it back.
* `Kind.name` is the spelling used in tree dumps, `Kind.ofName?` reads it back.
* `Kind.isTrivia`, `Kind.isLexError`, `Kind.isSkipped` say which tokens the grammar never sees.
-/

namespace ScriptTree

/-- Kinds of tokens (up to `garbage`) and of nodes (from `program` on). -/
inductive Kind where
  /-- Token `{`. -/
  | lCurly
  /-- Token `}`. -/
  | rCurly
  /-- Token `(`. -/
  | lParen
  /-- Token `)`. -/
  | rParen
  /-- Token `[`. -/
  | lBracket
  /-- Token `]`. -/
  | rBracket
  /-- Token `.`. -/
  | dot
  /-- Token `#`, which starts a reference literal `#name`. -/
  | hash
  /-- Token `,`. -/
  | comma
  /-- Token `:`, written twice for static member access `Type::member`. -/
  | colon
  /-- Token `;`. -/
  | semiColon
  /-- Token `!`: logical not before an operand, non-null assertion after one. -/
  | exclMark
  /-- Token `++`. -/
  | plusPlus
  /-- Token `--`. -/
  | minusMinus
  /-- Token `*`. -/
  | asterisk
  /-- Token `/`. -/
  | slash
  /-- Token `%`. -/
  | percent
  /-- Token `^`. -/
  | caret
  /-- Token `+`. -/
  | plus
  /-- Token `-`. -/
  | minus
  /-- Token `<`, which also opens type arguments. -/
  | less
  /-- Token `>`, which also closes type arguments. -/
  | greater
  /-- Token `<=`. -/
  | lessEq
  /-- Token `>=`. -/
  | greaterEq
  /-- Token `&&`. -/
  | ampAmp
  /-- Token `|`, which also separates the members of a union type. -/
  | pipe
  /-- Token `||`. -/
  | pipePipe
  /-- Token `==`. -/
  | eqEq
  /-- Token `!=`. -/
  | exclMarkEq
  /-- Token `=`. -/
  | eq
  /-- Token `+=`. -/
  | plusEq
  /-- Token `-=`. -/
  | minusEq
  /-- Token `*=`. -/
  | asteriskEq
  /-- Token `%=`. -/
  | percentEq
  /-- Token `/=`. -/
  | slashEq
  /-- Token `var`. -/
  | kwVar
  /-- Token `static`. -/
  | kwStatic
  /-- Token `function`. -/
  | kwFunction
  /-- Token `open`. -/
  | kwOpen
  /-- Token `type`. -/
  | kwType
  /-- Token `new`. -/
  | kwNew
  /-- Token `return`. -/
  | kwReturn
  /-- Token `private`. -/
  | kwPrivate
  /-- Token `if`. -/
  | kwIf
  /-- Token `is`. -/
  | kwIs
  /-- Token `else`. -/
  | kwElse
  /-- Token `while`. -/
  | kwWhile
  /-- Token `for`. -/
  | kwFor
  /-- Token `import`. -/
  | kwImport
  /-- Token `null`. -/
  | kwNull
  /-- Token `this`. -/
  | kwThis
  /-- Token `true`. -/
  | kwTrue
  /-- Token `false`. -/
  | kwFalse
  /-- A number, with its sign where the sign is not a binary minus. -/
  | number
  /-- A string in single quotes, on one line. -/
  | singleQuoted
  /-- A string in double quotes, on one line. -/
  | doubleQuoted
  /-- A literal in back quotes, which may span lines. -/
  | backQuoted
  /-- A word that is no keyword. -/
  | identifier
  /-- A run of white space. -/
  | whitespace
  /-- Token `//` up to the line feed. -/
  | lineComment
  /-- Token `///` up to the line feed. -/
  | docComment
  /-- Token `/*` up to the first `*/`. -/
  | blockComment
  /-- An unterminated string, or one with an unknown escape. -/
  | malformedString
  /-- A block comment that runs into the end of the text. -/
  | unterminatedComment
  /-- A run of characters that no pattern matches. -/
  | garbage
  /-- Tokens that recovery set aside; also what lookahead answers past the last token. -/
  | error
  /-- The root. -/
  | program
  /-- Import of another file: `import "path"`. -/
  | importDecl
  /-- Function declaration: name, parameters, return type and body. -/
  | fnDecl
  /-- Parameters between parentheses. -/
  | paramList
  /-- One parameter: `name : types`. -/
  | param
  /-- Type declaration: `open? type Name { members }`. -/
  | typeDecl
  /-- One member of a type body, with its modifiers. -/
  | typeMember
  /-- Attribute of a type: `name : types (= expr)?`. -/
  | attrDecl
  /-- Union of types: `type (| type)*`. -/
  | typeList
  /-- Name of a type with its arguments. -/
  | typeName
  /-- Type arguments between angle brackets. -/
  | typeArgs
  /-- Block used as a statement. -/
  | block
  /-- Body of a function, branch or loop. -/
  | logicBlock
  /-- Conditional statement. -/
  | ifStmt
  /-- Alternative of a conditional: a body or a further conditional. -/
  | elseClause
  /-- Loop with a condition. -/
  | whileStmt
  /-- Loop with a variable, a condition and an update. -/
  | forStmt
  /-- Variable declaration. -/
  | varStmt
  /-- Initial value of a variable or attribute: `= expr`. -/
  | initializer
  /-- Expression used as a statement. -/
  | exprStmt
  /-- Return of a value. -/
  | returnStmt
  /-- Operand, binary operator and the rest of the chain. -/
  | binaryExpr
  /-- Type test: `operand is Name`. -/
  | isExpr
  /-- Operator before its operand. -/
  | prefixExpr
  /-- Operand before its operator. -/
  | postfixExpr
  /-- Base expression with its accessors, or after `new`. -/
  | memberExpr
  /-- Accessor `.name`. -/
  | fieldAccess
  /-- Accessor `::name`. -/
  | staticAccess
  /-- Accessor `[expr]`. -/
  | indexAccess
  /-- Accessor `(args)`. -/
  | callArgs
  /-- Accessor `!`. -/
  | nonNullAssert
  /-- Use of a name. -/
  | nameRef
  /-- Reference literal `#name`. -/
  | refLiteral
  /-- Literal of one token. -/
  | literal
  /-- Record `Name? { name : expr, ... }`. -/
  | recordLiteral
  /-- Property of a record: `name : expr`. -/
  | recordProp
  /-- Array `scalar? [ expr, ... ]`. -/
  | arrayLiteral
  /-- Anonymous function. -/
  | fnLiteral
  /-- Expression between parentheses. -/
  | parenExpr
  deriving DecidableEq, Repr, Inhabited

namespace Kind

/-- Every kind, in index order. -/
def all : List Kind :=
  [.lCurly, .rCurly, .lParen, .rParen, .lBracket, .rBracket, .dot, .hash, .comma, .colon,
   .semiColon, .exclMark, .plusPlus, .minusMinus, .asterisk, .slash, .percent, .caret, .plus,
   .minus, .less, .greater, .lessEq, .greaterEq, .ampAmp, .pipe, .pipePipe, .eqEq, .exclMarkEq,
   .eq, .plusEq, .minusEq, .asteriskEq, .percentEq, .slashEq, .kwVar, .kwStatic, .kwFunction,
   .kwOpen, .kwType, .kwNew, .kwReturn, .kwPrivate, .kwIf, .kwIs, .kwElse, .kwWhile, .kwFor,
   .kwImport, .kwNull, .kwThis, .kwTrue, .kwFalse, .number, .singleQuoted, .doubleQuoted,
   .backQuoted, .identifier, .whitespace, .lineComment, .docComment, .blockComment,
   .malformedString, .unterminatedComment, .garbage, .error, .program, .importDecl, .fnDecl,
   .paramList, .param, .typeDecl, .typeMember, .attrDecl, .typeList, .typeName, .typeArgs,
   .block, .logicBlock, .ifStmt, .elseClause, .whileStmt, .forStmt, .varStmt, .initializer,
   .exprStmt, .returnStmt, .binaryExpr, .isExpr, .prefixExpr, .postfixExpr, .memberExpr,
   .fieldAccess, .staticAccess, .indexAccess, .callArgs, .nonNullAssert, .nameRef, .refLiteral,
   .literal, .recordLiteral, .recordProp, .arrayLiteral, .fnLiteral, .parenExpr]

/-- Number of kinds. -/
def count : Nat := 105

/-- Position of a kind in `all`. -/
def index (k : Kind) : Nat := k.ctorIdx

/-- The kind at a position of `all`. -/
def ofIndex? (i : Nat) : Option Kind := all[i]?

@[simp] theorem length_all : all.length = count := rfl

/-- Each kind stands in `all` at its index. -/
@[simp] theorem ofIndex?_index (k : Kind) : ofIndex? k.index = some k := by
  cases k <;> rfl

/-- The indices of kinds are below their number. -/
theorem index_lt_count (k : Kind) : k.index < count := by
  obtain ⟨h, -⟩ := List.getElem?_eq_some_iff.mp (ofIndex?_index k)
  simpa using h

/-- Each position below `count` is the index of the kind that stands there. -/
theorem exists_index_eq {i : Nat} (h : i < count) : ∃ k : Kind, k.index = i := by
  have key : ∀ i : Fin count, (ofIndex? i).map index = some i.val := by decide
  obtain ⟨k, -, hk⟩ := Option.map_eq_some_iff.mp (key ⟨i, h⟩)
  exact ⟨k, hk⟩

/-- No two kinds have the same index. -/
theorem index_inj {j k : Kind} : j.index = k.index ↔ j = k := by
  constructor
  · intro h
    exact Option.some.inj (by rw [← ofIndex?_index j, ← ofIndex?_index k, h])
  · rintro rfl; rfl

/-- The list of all kinds has them all. -/
theorem mem_all (k : Kind) : k ∈ all :=
  List.mem_of_getElem? (ofIndex?_index k)

/-- Spelling of a kind in dumps and listings. -/
def name : Kind → String
  | .lCurly => "LCurly"
  | .rCurly => "RCurly"
  | .lParen => "LParen"
  | .rParen => "RParen"
  | .lBracket => "LBracket"
  | .rBracket => "RBracket"
  | .dot => "Dot"
  | .hash => "Hash"
  | .comma => "Comma"
  | .colon => "Colon"
  | .semiColon => "SemiColon"
  | .exclMark => "ExclMark"
  | .plusPlus => "PlusPlus"
  | .minusMinus => "MinusMinus"
  | .asterisk => "Asterisk"
  | .slash => "Slash"
  | .percent => "Percent"
  | .caret => "Caret"
  | .plus => "Plus"
  | .minus => "Minus"
  | .less => "Less"
  | .greater => "Greater"
  | .lessEq => "LessEq"
  | .greaterEq => "GreaterEq"
  | .ampAmp => "AmpAmp"
  | .pipe => "Pipe"
  | .pipePipe => "PipePipe"
  | .eqEq => "EqEq"
  | .exclMarkEq => "ExclMarkEq"
  | .eq => "Eq"
  | .plusEq => "PlusEq"
  | .minusEq => "MinusEq"
  | .asteriskEq => "AsteriskEq"
  | .percentEq => "PercentEq"
  | .slashEq => "SlashEq"
  | .kwVar => "KwVar"
  | .kwStatic => "KwStatic"
  | .kwFunction => "KwFunction"
  | .kwOpen => "KwOpen"
  | .kwType => "KwType"
  | .kwNew => "KwNew"
  | .kwReturn => "KwReturn"
  | .kwPrivate => "KwPrivate"
  | .kwIf => "KwIf"
  | .kwIs => "KwIs"
  | .kwElse => "KwElse"
  | .kwWhile => "KwWhile"
  | .kwFor => "KwFor"
  | .kwImport => "KwImport"
  | .kwNull => "KwNull"
  | .kwThis => "KwThis"
  | .kwTrue => "KwTrue"
  | .kwFalse => "KwFalse"
  | .number => "Number"
  | .singleQuoted => "SingleQuoted"
  | .doubleQuoted => "DoubleQuoted"
  | .backQuoted => "BackQuoted"
  | .identifier => "Identifier"
  | .whitespace => "Whitespace"
  | .lineComment => "LineComment"
  | .docComment => "DocComment"
  | .blockComment => "BlockComment"
  | .malformedString => "MalformedString"
  | .unterminatedComment => "UnterminatedComment"
  | .garbage => "Garbage"
  | .error => "Error"
  | .program => "Program"
  | .importDecl => "Import"
  | .fnDecl => "FnDecl"
  | .paramList => "ParamList"
  | .param => "Param"
  | .typeDecl => "TypeDecl"
  | .typeMember => "TypeMember"
  | .attrDecl => "AttrDecl"
  | .typeList => "TypeList"
  | .typeName => "TypeName"
  | .typeArgs => "TypeArgs"
  | .block => "Block"
  | .logicBlock => "LogicBlock"
  | .ifStmt => "IfStmt"
  | .elseClause => "ElseClause"
  | .whileStmt => "WhileStmt"
  | .forStmt => "ForStmt"
  | .varStmt => "VarStmt"
  | .initializer => "Initializer"
  | .exprStmt => "ExprStmt"
  | .returnStmt => "ReturnStmt"
  | .binaryExpr => "BinaryExpr"
  | .isExpr => "IsExpr"
  | .prefixExpr => "PrefixExpr"
  | .postfixExpr => "PostfixExpr"
  | .memberExpr => "MemberExpr"
  | .fieldAccess => "FieldAccess"
  | .staticAccess => "StaticAccess"
  | .indexAccess => "IndexAccess"
  | .callArgs => "CallArgs"
  | .nonNullAssert => "NonNullAssert"
  | .nameRef => "NameRef"
  | .refLiteral => "RefLiteral"
  | .literal => "Literal"
  | .recordLiteral => "RecordLiteral"
  | .recordProp => "RecordProp"
  | .arrayLiteral => "ArrayLiteral"
  | .fnLiteral => "FnLiteral"
  | .parenExpr => "ParenExpr"

/-- The kind with a given spelling. -/
def ofName? (s : String) : Option Kind := all.find? (·.name == s)

/-- White space and comments. -/
def isTrivia : Kind → Bool
  | whitespace | lineComment | docComment | blockComment => true
  | _ => false

/-- Tokens the lexer could not make sense of.  They stay in the tree, but the grammar never sees
    them. -/
def isLexError : Kind → Bool
  | garbage | malformedString | unterminatedComment => true
  | _ => false

/-- Lexical errors, and what recovery set aside. -/
def isError (k : Kind) : Bool := k == error || k.isLexError

/-- Not visible to the grammar: trivia and lexical errors. -/
def isSkipped (k : Kind) : Bool := k.isTrivia || k.isLexError

/-- Kinds before the first node kind. -/
def isToken (k : Kind) : Bool := k.index < program.index

end Kind

end ScriptTree
