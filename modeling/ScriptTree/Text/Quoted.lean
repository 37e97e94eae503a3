import ScriptTree.Text.GraphemeExtend
import ScriptTree.Text.Printable

/-!
# Quoted text

Texts are shown on one line: control characters, quotes, the backslash and characters that could
not be seen are written as escapes.

* `quoted` is the form in tree dumps, between double quotes.
* `shown` is the form inside messages, without quotes around it.
-/

namespace ScriptTree.Text

/-- Hexadecimal escape of a character. -/
def hexEscape (c : Char) : List Char :=
  '\\' :: 'u' :: '\x7b' :: Nat.toDigits 16 c.toNat ++ ['\x7d']

/-- Escape of one character.  A single quote is escaped if `single` holds, a character that extends
    a grapheme if `extend` holds. -/
def escapeChar (single extend : Bool) (c : Char) : List Char :=
  if c = '\x00' then ['\\', '0']
  else if c = '\t' then ['\\', 't']
  else if c = '\r' then ['\\', 'r']
  else if c = '\n' then ['\\', 'n']
  else if c = '\\' then ['\\', '\\']
  else if c = '"' then ['\\', '"']
  else if c = '\x27' then (if single then ['\\', '\x27'] else ['\x27'])
  else if extend && isGraphemeExtend c then hexEscape c
  else if isPrintable c then [c]
  else hexEscape c

/-- The text between double quotes, on one line. -/
def quoted (s : String) : String :=
  String.ofList ('"' :: s.toList.flatMap (escapeChar false true) ++ ['"'])

/-- The text on one line.  Only the first character can be an unescaped mark without a base, so
    only there a mark is escaped. -/
def shown (s : String) : String :=
  String.ofList <|
    match s.toList with
    | [] => []
    | c :: cs => escapeChar true true c ++ cs.flatMap (escapeChar true false)

end ScriptTree.Text
