import ScriptTree.Token

/-!
# Syntax trees

A `Tree` is a leaf with its text, or a node with its children in order.  Trees carry no offsets:
an element starts where the texts before it end.

* `leaves` is the view: the kinds and texts of the leaves from left to right.
* `text` spells out the source.
* `significant` forgets the leaves that the grammar never sees.
-/

namespace ScriptTree

/-- A syntax tree. -/
inductive Tree where
  | leaf (kind : Kind) (text : String)
  | node (kind : Kind) (children : List Tree)
  deriving Repr, Inhabited

namespace Tree

/-- The leaf of a token. -/
def ofToken (t : Token) : Tree := leaf t.kind t.text

/-- The kind of the root. -/
def kind : Tree → Kind
  | leaf kind _ => kind
  | node kind _ => kind

/-- The children of a node. -/
def children : Tree → List Tree
  | leaf _ _ => []
  | node _ children => children

/-- Is the tree a node, and not a leaf? -/
def isNode : Tree → Bool
  | leaf _ _ => false
  | node _ _ => true

mutual

/-- The leaves from left to right. -/
def leaves : Tree → List (Kind × String)
  | leaf kind text => [(kind, text)]
  | node _ children => leavesOf children

/-- The leaves of several trees. -/
def leavesOf : List Tree → List (Kind × String)
  | [] => []
  | t :: ts => t.leaves ++ leavesOf ts

end

/-- The text that the tree spells out. -/
def text (t : Tree) : String := String.join (t.leaves.map (·.2))

mutual

/-- Number of bytes of the text. -/
def width : Tree → Nat
  | leaf _ text => Text.byteLength text.toList
  | node _ children => widthOf children

/-- Number of bytes of the texts of several trees. -/
def widthOf : List Tree → Nat
  | [] => 0
  | t :: ts => t.width + widthOf ts

end

mutual

/-- Same kinds, structure and texts. -/
def same : Tree → Tree → Bool
  | leaf k s, leaf l t => k == l && s == t
  | node k ts, node l us => k == l && sameAll ts us
  | _, _ => false

/-- Test `same` for two lists of trees. -/
def sameAll : List Tree → List Tree → Bool
  | [], [] => true
  | t :: ts, u :: us => t.same u && sameAll ts us
  | _, _ => false

end

/-- Is the tree a leaf whose kind is to be dropped? -/
def isDropped (drop : Kind → Bool) : Tree → Bool
  | leaf kind _ => drop kind
  | node _ _ => false

mutual

/-- The tree without the leaves whose kind is to be dropped; the root stays. -/
def erase (drop : Kind → Bool) : Tree → Tree
  | leaf kind text => leaf kind text
  | node kind children => node kind (eraseAll drop children)

/-- Function `erase` for the children of a node. -/
def eraseAll (drop : Kind → Bool) : List Tree → List Tree
  | [] => []
  | t :: ts => if t.isDropped drop then eraseAll drop ts else t.erase drop :: eraseAll drop ts

end

/-- The tree of the tokens that the grammar sees. -/
def significant (t : Tree) : Tree := t.erase Kind.isSkipped

/-- The leaves of trees are those of each tree in turn. -/
theorem leavesOf_eq_flatMap (ts : List Tree) : leavesOf ts = ts.flatMap leaves := by
  induction ts with
  | nil => simp [leavesOf]
  | cons t ts ih => simp [leavesOf, ih]

mutual

/-- The test for the same tree is right. -/
private theorem same_iff : ∀ t u : Tree, t.same u = true ↔ t = u
  | leaf k s, leaf l t => by simp [same]
  | leaf _ _, node _ _ => by simp [same]
  | node _ _, leaf _ _ => by simp [same]
  | node k ts, node l us => by simp [same, sameAll_iff ts us]

/-- The test for the same trees is right. -/
private theorem sameAll_iff : ∀ ts us : List Tree, sameAll ts us = true ↔ ts = us
  | [], [] => by simp [sameAll]
  | [], _ :: _ => by simp [sameAll]
  | _ :: _, [] => by simp [sameAll]
  | t :: ts, u :: us => by simp [sameAll, same_iff t u, sameAll_iff ts us]

end

instance : DecidableEq Tree := fun t u => decidable_of_iff _ (same_iff t u)

end Tree

end ScriptTree
