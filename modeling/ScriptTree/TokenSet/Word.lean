import ScriptTree.TokenSet

/-!
# Sets of kinds in a machine word

A set of kinds fits into one machine word, where the bit of a kind is set and tested by a shift.
A shift must stay inside the word, so the operations here may fail (`TokenSet.Word.bit?`).

The enumeration of the kinds ends with a sentinel (`Variant.last`) that counts them.  No token and
no node has it, but it has an index like the kinds and a word has room for its bit: a word can be
given it and asked for it, and only the list of the members (`TokenSet.Word.toList?`) stops before
it.
-/

namespace ScriptTree

/-- A variant of the enumeration of kinds: a kind, or the sentinel behind the last one. -/
inductive Variant where
  | kind (k : Kind)
  | last
  deriving DecidableEq, Repr

namespace Variant

/-- Position in the enumeration.  The sentinel's position is the number of kinds. -/
def index : Variant → Nat
  | kind k => k.index
  | last => Kind.count

/-- Name of the variant. -/
def name : Variant → String
  | kind k => k.name
  | last => "__LAST"

/-- The variant with a name. -/
def ofName? (s : String) : Option Variant :=
  if s == last.name then some last else (Kind.ofName? s).map kind

end Variant

namespace TokenSet

/-- Number of bits of a word. -/
def capacity : Nat := 128

/-- A machine word. -/
abbrev Word := BitVec capacity

/-- A set as a word, with zeros behind the bits of the kinds. -/
def word (s : TokenSet) : Word := s.bits.setWidth capacity

namespace Word

/-- The word with one bit, if there is such a bit. -/
def bit? (i : Nat) : Option Word :=
  if i < capacity then some (BitVec.ofNat capacity 1 <<< i) else none

/-- The word of a list of variants, whose bits are set one after the other. -/
def ofList? (vs : List Variant) : Option Word :=
  vs.foldlM (fun w v => do return w ||| (← bit? v.index)) 0

/-- The word of one variant. -/
def single? (v : Variant) : Option Word := bit? v.index

/-- Is the bit of a variant set?  A variant beyond the word has none. -/
def holds? (w : Word) (v : Variant) : Option Bool :=
  if capacity ≤ v.index then some false
  else do return w &&& (← bit? v.index) != 0

/-- The kinds whose bits are set, in index order. -/
def toList? (w : Word) : Option (List Kind) :=
  (List.range (min Kind.count capacity)).filterMapM fun i => do
    if w &&& (← bit? i) != 0 then return some (← Kind.ofIndex? i) else return none

/-- The names of the kinds whose bits are set, between braces, in index order. -/
def render? (w : Word) : Option String := do
  return "\x7b" ++ ", ".intercalate ((← w.toList?).map Kind.name) ++ "\x7d"

end Word

end TokenSet

end ScriptTree
