import ScriptTree.Kind
import ScriptTree.Pattern
import ScriptTree.Text.Blank

/-!
# The lexicon

The pattern of every kind of token.  Entries are in the order in which they win ties: fixed words
before the identifier pattern, complete strings before malformed ones, documentation comments
before line comments.
-/

namespace ScriptTree.Lexicon

open Pattern

/-- Tokens that are always spelled alike. -/
def fixedSpellings : List (Kind × String) :=
  [(.lCurly, "\x7b"), (.rCurly, "\x7d"), (.lParen, "("), (.rParen, ")"), (.lBracket, "["),
    (.rBracket, "]"), (.dot, "."), (.hash, "#"), (.comma, ","), (.colon, ":"), (.semiColon, ";"),
    (.exclMark, "!"), (.plusPlus, "++"), (.minusMinus, "--"), (.asterisk, "*"), (.slash, "/"),
    (.percent, "%"), (.caret, "^"), (.plus, "+"), (.minus, "-"), (.less, "<"), (.greater, ">"),
    (.lessEq, "<="), (.greaterEq, ">="), (.ampAmp, "&&"), (.pipe, "|"), (.pipePipe, "||"),
    (.eqEq, "=="), (.exclMarkEq, "!="), (.eq, "="), (.plusEq, "+="), (.minusEq, "-="),
    (.asteriskEq, "*="), (.percentEq, "%="), (.slashEq, "/="), (.kwVar, "var"),
    (.kwStatic, "static"), (.kwFunction, "function"), (.kwOpen, "open"), (.kwType, "type"),
    (.kwNew, "new"), (.kwReturn, "return"), (.kwPrivate, "private"), (.kwIf, "if"), (.kwIs, "is"),
    (.kwElse, "else"), (.kwWhile, "while"), (.kwFor, "for"), (.kwImport, "import"),
    (.kwNull, "null"), (.kwThis, "this"), (.kwTrue, "true"), (.kwFalse, "false")]

/-- A decimal digit. -/
def digit : Pattern := oneOf (.between '0' '9')

/-- A hexadecimal digit. -/
def hexDigit : Pattern := oneOf (.between '0' '9' ++ .between 'a' 'f' ++ .between 'A' 'F')

/-- A sign, digits, a fraction, and then an exponent or a type letter; all but the digits may be
    missing. -/
def numberPattern : Pattern :=
  maybe (text "-") ++ many1 digit ++ maybe (text ".") ++ many digit ++
    maybe ((oneOf (.ofString "eE") ++ maybe (text "-") ++ many1 digit) |||
      oneOf (.ofString "dDlL"))

/-- A letter or underscore, then letters, digits and underscores. -/
def identifierPattern : Pattern :=
  let letter : CharRanges := .between 'A' 'Z' ++ .between 'a' 'z' ++ .ofString "_"
  oneOf letter ++ many (oneOf (letter ++ .between '0' '9'))

/-- Line breaks, which only back-quoted literals may contain. -/
def lineBreaks : CharRanges := .ofString "\r\n"

/-- A complete literal: any character but the quote, the backslash and those in `barred`, or an
    escape, between two quotes. -/
def stringPattern (quote : String) (barred : CharRanges) : Pattern :=
  text quote ++
    many (noneOf (.ofString quote ++ .ofString "\\" ++ barred) |||
      (text "\\" ++
        (oneOf (.ofString "bfnrtv\\/" ++ .ofString quote) |||
          (text "u" ++ hexDigit ++ hexDigit ++ hexDigit ++ hexDigit)))) ++
    text quote

/-- A literal that need not end, and in which a backslash escapes anything but a line break. -/
def malformedPattern (quote : String) (barred : CharRanges) : Pattern :=
  text quote ++
    many (noneOf (.ofString quote ++ .ofString "\\" ++ barred) |||
      (text "\\" ++ noneOf lineBreaks)) ++
    maybe (text quote)

/-- Any text without a line feed after an opening. -/
def linePattern (opening : String) : Pattern := text opening ++ many (noneOf (.ofString "\n"))

/-- From the opening of a block comment to its end. -/
def blockCommentPattern : Pattern :=
  text "/*" ++ many (noneOf (.ofString "*")) ++ many1 (text "*") ++
    many (noneOf (.ofString "/*") ++ many (noneOf (.ofString "*")) ++ many1 (text "*")) ++ text "/"

/-- The opening of a block comment and text in which it does not end. -/
def unterminatedCommentPattern : Pattern :=
  text "/*" ++
    many (noneOf (.ofString "*") ||| (many1 (text "*") ++ noneOf (.ofString "*/"))) ++
    many (text "*")

/-- Tokens with a spelling of their own. -/
def openPatterns : List (Kind × Pattern) :=
  [(.number, numberPattern),
   (.singleQuoted, stringPattern "\x27" lineBreaks),
   (.doubleQuoted, stringPattern "\"" lineBreaks),
   (.backQuoted, stringPattern "\x60" []),
   (.identifier, identifierPattern),
   (.whitespace, many1 (oneOf Text.blankRanges)),
   (.docComment, linePattern "///"),
   (.lineComment, linePattern "//"),
   (.blockComment, blockCommentPattern),
   (.malformedString, malformedPattern "\x27" lineBreaks),
   (.malformedString, malformedPattern "\"" lineBreaks),
   (.malformedString, malformedPattern "\x60" []),
   (.unterminatedComment, unterminatedCommentPattern)]

/-- The pattern of every kind of token; the first of two matches of one length wins. -/
def entries : List (Kind × Pattern) :=
  fixedSpellings.map (fun (kind, spelling) => (kind, text spelling)) ++ openPatterns

end ScriptTree.Lexicon
