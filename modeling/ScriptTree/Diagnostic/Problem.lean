/-!
# Problems

A `Problem` is what can be wrong with a text.  Problems are listed by priority: one that comes
first tends to cause those after it, and where two reports overlap the earlier problem is the one
worth showing.

* Unclosed delimiters disturb the whole rest of the text.
* Missing parts come next: they are what the writer should mend first.
* Misplaced parts are mistakes at one place.
* Lexical errors never meet the others, because the grammar does not see those tokens.
* Warnings come last.
-/

namespace ScriptTree

/-- How bad a problem is. -/
inductive Severity where
  | error
  | warning
  deriving DecidableEq, Repr

/-- The word for a severity. -/
def Severity.render : Severity → String
  | .error => "error"
  | .warning => "warning"

/-- What can be wrong with a text, highest priority first. -/
inductive Problem where
  | unclosedBlock
  | unclosedParen
  | unclosedBracket
  | expectedExpression
  | expectedIdentifier
  | expectedTypeName
  | expectedStatement
  | expectedImportPath
  | expectedToken
  | emptyBlock
  | chainedPrefixOperator
  | unexpectedToken
  | unrecognizedCharacter
  | malformedString
  | unterminatedComment
  | redundantSemicolon
  deriving DecidableEq, Repr

namespace Problem

/-- Every problem, by priority. -/
def all : List Problem :=
  [.unclosedBlock, .unclosedParen, .unclosedBracket, .expectedExpression, .expectedIdentifier,
   .expectedTypeName, .expectedStatement, .expectedImportPath, .expectedToken, .emptyBlock,
   .chainedPrefixOperator, .unexpectedToken, .unrecognizedCharacter, .malformedString,
   .unterminatedComment, .redundantSemicolon]

/-- Place in the order of priority, from zero. -/
def rank (p : Problem) : Nat := p.ctorIdx

/-- Spelling of a problem in listings. -/
def name : Problem → String
  | unclosedBlock => "UnclosedBlock"
  | unclosedParen => "UnclosedParen"
  | unclosedBracket => "UnclosedBracket"
  | expectedExpression => "ExpectedExpression"
  | expectedIdentifier => "ExpectedIdentifier"
  | expectedTypeName => "ExpectedTypeName"
  | expectedStatement => "ExpectedStatement"
  | expectedImportPath => "ExpectedImportPath"
  | expectedToken => "ExpectedToken"
  | emptyBlock => "EmptyBlock"
  | chainedPrefixOperator => "ChainedPrefixOperator"
  | unexpectedToken => "UnexpectedToken"
  | unrecognizedCharacter => "UnrecognizedCharacter"
  | malformedString => "MalformedString"
  | unterminatedComment => "UnterminatedComment"
  | redundantSemicolon => "RedundantSemicolon"

/-- The problem with a given spelling. -/
def ofName? (s : String) : Option Problem := all.find? (·.name == s)

/-- Everything but a superfluous semicolon is an error. -/
def severity : Problem → Severity
  | redundantSemicolon => .warning
  | _ => .error

/-- Does the first problem have priority over the second? -/
def outranks (p q : Problem) : Bool := p.rank < q.rank

/-- Delimiters without a partner. -/
def isStructural : Problem → Bool
  | unclosedBlock | unclosedParen | unclosedBracket => true
  | _ => false

/-- Something required is missing. -/
def isRootCause : Problem → Bool
  | expectedExpression | expectedIdentifier | expectedTypeName | expectedStatement
  | expectedImportPath | expectedToken => true
  | _ => false

/-- Found while reading tokens and not by the grammar. -/
def isLexical : Problem → Bool
  | unrecognizedCharacter | malformedString | unterminatedComment => true
  | _ => false

/-- Message of a problem without detail. -/
def summary : Problem → String
  | unclosedBlock => "missing closing `\x7d`"
  | unclosedParen => "missing closing `)`"
  | unclosedBracket => "missing closing `]`"
  | expectedExpression => "expected an expression"
  | expectedIdentifier => "expected an identifier"
  | expectedTypeName => "expected a type name"
  | expectedStatement => "expected a statement"
  | expectedImportPath => "expected a string literal after `import`"
  | expectedToken => "missing token"
  | emptyBlock => "block must contain at least one statement"
  | chainedPrefixOperator => "prefix operators cannot be chained"
  | unexpectedToken => "unexpected token"
  | unrecognizedCharacter => "unrecognized character"
  | malformedString => "unterminated or malformed string literal"
  | unterminatedComment => "unterminated block comment"
  | redundantSemicolon => "redundant `;`"

/-- What stands before the detail in a message that has one. -/
def lead (p : Problem) : String :=
  if p.isStructural then p.summary ++ "; "
  else if p = expectedToken then "expected "
  else p.summary ++ ": "

/-- Form of the messages with a detail. -/
def template (p : Problem) : String := p.lead ++ "\x7b\x7d"

/-- The message of a problem, with a detail if there is one. -/
def message (p : Problem) : Option String → String
  | none => p.summary
  | some detail => p.lead ++ detail

/-- The list of all problems has them all. -/
theorem mem_all (p : Problem) : p ∈ all := by cases p <;> decide

end Problem

end ScriptTree
