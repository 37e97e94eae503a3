import ScriptTree.Proofs.Canonical
import ScriptTree.Proofs.Soundness

/-!
# Reading trees back

A tree is read back if the rule that is called for it reads its leaves and puts the tree into the
frame.  `Step.Builds` says this of a step, with what follows the leaves; it composes like the steps
do.  A rule that makes nodes of what stands in its own frame fills the frame (`Step.Fills`), in one
go or by turning one tree into another (`Step.Turns`).

What may follow a tree depends on the rule that reads it.  A `Role` is such a rule, and `Role.Fits`
says which nodes it reads and what may follow them.

## Key results

- `Step.Builds.append`: trees are read one after the other
- `Step.Turns.fills`: an operand is read, then what takes it as its first child
- `Tree.first_of_production`: the first token of a node that begins with a token
-/

namespace ScriptTree

/-- What a rule reads without mistakes and without warnings. -/
abbrev Rule.step (rule : Rule) : Step := (Rule.Parses false).To rule

/-! ## Steps that build trees -/

namespace Step

/-- A step reads the leaves of some trees, whatever stands in the frame, and adds the trees to the
    frame; what follows the leaves is left. -/
def Builds (step : Step) (ts : List Tree) (rest : List (Kind × String)) : Prop :=
  ∀ frame, step ⟨Tree.leavesOf ts ++ rest, frame⟩ ⟨rest, frame ++ ts⟩

variable {step other : Step} {steps : List Step} {t : Tree} {ts us : List Tree} {k : Kind}
  {set : TokenSet} {c : List (Kind × String) → Bool} {rest : List (Kind × String)}

namespace Builds

/-- A step is as good as its form. -/
theorem of_form (hform : ∀ {x y}, step x y ↔ other x y) (h : other.Builds ts rest) :
    step.Builds ts rest := fun frame => hform.mpr (h frame)

/-- No steps build nothing. -/
theorem nil : (row []).Builds [] rest := fun frame => by simp

/-- What one step builds is followed by what the others build. -/
theorem append (h : step.Builds ts (Tree.leavesOf us ++ rest)) (h' : (row steps).Builds us rest) :
    (row (step :: steps)).Builds (ts ++ us) rest := by
  intro frame
  refine ⟨⟨Tree.leavesOf us ++ rest, frame ++ ts⟩, ?_, ?_⟩
  · simpa using h frame
  · simpa using h' (frame ++ ts)

/-- A step builds one tree, and the others build the trees behind it. -/
theorem cons (h : step.Builds [t] (Tree.leavesOf us ++ rest)) (h' : (row steps).Builds us rest) :
    (row (step :: steps)).Builds (t :: us) rest := append h h'

/-- A step builds two trees, and the others build the trees behind them. -/
theorem cons₂ {u : Tree} (h : step.Builds [t, u] (Tree.leavesOf us ++ rest))
    (h' : (row steps).Builds us rest) : (row (step :: steps)).Builds (t :: u :: us) rest :=
  append h h'

/-- A step that has nothing to do here. -/
theorem idle (h : step.Builds [] (Tree.leavesOf us ++ rest)) (h' : (row steps).Builds us rest) :
    (row (step :: steps)).Builds us rest := append h h'

/-- The last step may build several trees. -/
theorem last (h : step.Builds ts rest) : (row [step]).Builds ts rest := by
  intro frame
  exact ⟨_, h frame, rfl⟩

/-- A token builds its leaf. -/
theorem token {text : String} : (Step.token k).Builds [.leaf k text] rest := by
  intro frame
  exact ⟨text, by simp, rfl⟩

/-- A token of the set builds its leaf. -/
theorem tokens {text : String} (hk : set.contains k = true) :
    (Step.tokens set).Builds [.leaf k text] rest := by
  intro frame
  exact ⟨by simpa [isAtAny] using hk, text, by simp, by simp⟩

/-- Whatever token is there builds its leaf. -/
theorem any {text : String} : Step.any.Builds [.leaf k text] rest := by
  intro frame
  exact ⟨text, by simp, by simp⟩

/-- A node is built of what its step builds in an empty frame. -/
theorem node (h : step.Builds ts rest) : (Step.node k step).Builds [.node k ts] rest := by
  intro frame
  exact ⟨⟨rest, ts⟩, by simpa using h [], rfl⟩

/-- A guarded step builds what the step builds, where the guard lets it pass. -/
theorem guarded (hc : c (Tree.leavesOf ts ++ rest) = true) (h : step.Builds ts rest) :
    (Step.guarded c step).Builds ts rest := fun frame => ⟨hc, h frame⟩

/-- A branch that is taken builds what its step builds. -/
theorem taken (hc : c (Tree.leavesOf ts ++ rest) = true) (h : step.Builds ts rest) :
    (branch c step other).Builds ts rest := by
  intro frame
  simp only [branch, hc, if_true]
  exact h frame

/-- A branch that is not taken leaves the building to the other one. -/
theorem passed (hc : c (Tree.leavesOf ts ++ rest) = false) (h : other.Builds ts rest) :
    (branch c step other).Builds ts rest := by
  intro frame
  simp only [branch, hc, Bool.false_eq_true, if_false]
  exact h frame

/-- A step that may be left out is taken where its token comes next. -/
theorem may (hk : kindAt (Tree.leavesOf ts ++ rest) 0 = k) (h : step.Builds ts rest) :
    (Step.may k step).Builds ts rest := taken (by simpa using hk) h

/-- A step that may be left out builds nothing where its token does not come next. -/
theorem mayNot (hk : kindAt rest 0 ≠ k) : (Step.may k step).Builds [] rest :=
  passed (by simpa [isAt] using hk) nil

/-- A token that may be missing builds its leaf where it is. -/
theorem mayToken {text : String} : (Step.mayToken k).Builds [.leaf k text] rest :=
  may (by simp) token

end Builds

/-! ### Frames of their own -/

/-- A step reads the leaves of some trees and fills an empty frame with the trees. -/
def Fills (step : Step) (ts : List Tree) (rest : List (Kind × String)) : Prop :=
  step ⟨Tree.leavesOf ts ++ rest, []⟩ ⟨rest, ts⟩

/-- A step that takes the only tree of the frame, and the leaves of others, for a new tree. -/
def Turns (step : Step) (t : Tree) (us : List Tree) (rest : List (Kind × String)) (t' : Tree) :
    Prop :=
  t'.leaves = t.leaves ++ Tree.leavesOf us ∧
    step ⟨Tree.leavesOf us ++ rest, [t]⟩ ⟨rest, [t']⟩

variable {first : Step} {t' : Tree}

/-- What builds behind any frame fills an empty one. -/
theorem Builds.fills (h : step.Builds ts rest) : step.Fills ts rest := h []

/-- What fills an empty frame builds behind any, as a group. -/
theorem Fills.group (h : step.Fills ts rest) : (Step.group step).Builds ts rest := by
  intro frame
  exact ⟨_, h, rfl⟩

/-- A branch that is taken fills the frame as its step does. -/
theorem Fills.taken (hc : c (Tree.leavesOf ts ++ rest) = true) (h : step.Fills ts rest) :
    (branch c step other).Fills ts rest := by
  simpa [Fills, branch, hc] using h

/-- A branch that is not taken leaves the frame to the other one. -/
theorem Fills.passed (hc : c (Tree.leavesOf ts ++ rest) = false) (h : other.Fills ts rest) :
    (branch c step other).Fills ts rest := by
  simpa [Fills, branch, hc] using h

/-- A first tree, and a step that turns it into another one, fill the frame with that. -/
theorem Turns.fills (hfirst : first.Builds [t] (Tree.leavesOf us ++ rest))
    (h : step.Turns t us rest t') : (row [first, step]).Fills [t'] rest := by
  refine ⟨⟨Tree.leavesOf us ++ rest, [t]⟩, ?_, _, h.2, rfl⟩
  have hread := hfirst []
  simpa [h.1] using hread

/-- A step that builds nothing leaves the tree as it is. -/
theorem Turns.idle (h : step.Builds [] rest) : step.Turns t [] rest t :=
  ⟨by simp, by simpa using h [t]⟩

/-- To wrap turns the tree into a node that it is the first child of. -/
theorem Turns.wrap (h : step.Builds us rest) :
    (Step.wrap k step).Turns t us rest (.node k (t :: us)) := by
  refine ⟨by simp, _, h [t], rfl⟩

/-- A branch that is taken turns the tree as its step does. -/
theorem Turns.taken (hc : c (Tree.leavesOf us ++ rest) = true) (h : step.Turns t us rest t') :
    (branch c step other).Turns t us rest t' := by
  refine ⟨h.1, ?_⟩
  simpa [branch, hc] using h.2

/-- A branch that is not taken leaves the turning to the other one. -/
theorem Turns.passed (hc : c (Tree.leavesOf us ++ rest) = false) (h : other.Turns t us rest t') :
    (branch c step other).Turns t us rest t' := by
  refine ⟨h.1, ?_⟩
  simpa [branch, hc] using h.2

end Step

/-! ## Roles -/

/-- A rule does what its script does. -/
theorem Rule.step_iff {rule : Rule} {step : Step}
    (hform : ∀ {x y}, rule.script.Leads false (Rule.Parses false) x y ↔ step x y) {x y : Reading} :
    rule.step x y ↔ step x y := by
  rw [← hform]
  simp only [Rule.step, Calls.To, Script.Leads, Rule.parses_iff]

/-- A rule builds what the step that it takes builds. -/
theorem Step.Builds.rule {rule : Rule} {step : Step} {ts : List Tree} {rest : List (Kind × String)}
    (hform : ∀ {x y}, rule.script.Leads false (Rule.Parses false) x y ↔ step x y)
    (h : step.Builds ts rest) : rule.step.Builds ts rest := of_form (Rule.step_iff hform) h

/-- A rule fills the frame as the step does that it takes. -/
theorem Step.Fills.rule {rule : Rule} {step : Step} {ts : List Tree} {rest : List (Kind × String)}
    (hform : ∀ {x y}, rule.script.Leads false (Rule.Parses false) x y ↔ step x y)
    (h : step.Fills ts rest) : rule.step.Fills ts rest := (Rule.step_iff hform).mpr h

namespace TokenSet

/-- What may follow types. -/
def typesFollow : TokenSet := ofList [.comma, .rParen, .lCurly, .eq, .semiColon, .greater]

/-- What may follow an expression. -/
def exprFollow : TokenSet := ofList [.semiColon, .rParen, .rBracket, .rCurly, .comma]

/-- What may follow an operand of a binary operator. -/
def unaryFollow : TokenSet := exprFollow ∪ binaryOps ∪ single .kwIs

/-- What may follow an operand of a postfix operator. -/
def memberFollow : TokenSet := unaryFollow ∪ postfixOps

end TokenSet

/-- What a tree is to the rule that reads it. -/
inductive Role where
  | typeName
  | typeArgs
  | types
  | param
  | paramList
  | importDecl
  | item
  | declaration
  | member
  | statement
  | body
  | elseClause
  /-- The statement after `else`. -/
  | elseIf
  /-- The last part of the head of a loop. -/
  | update
  | initializer
  | expr
  | unary
  | operand
  /-- The operand of a postfix operator. -/
  | target
  | primary
  | accessor
  | prop

open Step Grammar in
/-- The step that reads trees of a role. -/
def Role.step : Role → Step
  | typeName => Rule.typeName.step
  -- Type arguments have no rule of their own: they are read where a type name is.
  | typeArgs => node .typeArgs (row [token .less, Rule.typeList.step, Rule.typeArgTail.step,
      token .greater])
  | types => Rule.typeList.step
  | param => Rule.param.step
  | paramList => node .paramList (delimitedStep (Rule.Parses false) .params)
  | importDecl => Rule.importDecl.step
  | item => Rule.item.step
  | declaration => Grammar.declaration (Rule.Parses false)
  | member => Rule.member.step
  | statement => Rule.statement.step
  | body => Rule.body.step
  | elseClause => node .elseClause (row [token .kwElse,
      branch (isAt .kwIf) (Rule.ifStmt false).step Rule.body.step])
  | elseIf => (Rule.ifStmt false).step
  | update => guarded (isAtAny .exprFirst) (node .exprStmt Rule.expr.step)
  | initializer => Rule.initializer.step
  | expr => Rule.expr.step
  | unary => branch (isAtAny .prefixOps) (Rule.prefixes 0).step Rule.operand.step
  | operand => Rule.operand.step
  | target => memberStep (Rule.Parses false)
  | primary => Rule.primary.step
  | accessor => fun x y =>
      ∃ b, accessorAt x.input = some b ∧ accessorStep (Rule.Parses false) b x y
  | prop => Rule.recordProp.step

/-- What the elements of a list are to the rule that reads it. -/
def ListForm.role : ListForm → Role
  | params => .param
  | callArgs | array => .expr
  | record => .prop

/-- Which nodes have a role, and what may follow them. -/
def Role.Fits : Role → Kind → List Tree → List (Kind × String) → Prop
  | typeName, k, _, rest => k = .typeName ∧ kindAt rest 0 ≠ .less
  | typeArgs, k, _, _ => k = .typeArgs
  | types, k, _, rest => k = .typeList ∧ TokenSet.typesFollow.contains (kindAt rest 0) = true
  | param, k, _, rest => k = .param ∧ TokenSet.typesFollow.contains (kindAt rest 0) = true
  | paramList, k, _, _ => k = .paramList
  | importDecl, k, cs, _ => k = .importDecl ∧ (Tree.node k cs).isTerminated = true
  | item, k, cs, _ => TokenSet.itemNodes.contains k = true ∧ (Tree.node k cs).isSettled = true
  | declaration, k, _, rest =>
    TokenSet.contains (.ofList [.fnDecl, .attrDecl]) k = true ∧ kindAt rest 0 = .semiColon
  | member, k, cs, _ => k = .typeMember ∧ (Tree.node k cs).isTerminated = true
  | statement, k, cs, _ =>
    TokenSet.stmtNodes.contains k = true ∧ (Tree.node k cs).isSettled = true
  | body, k, _, _ => k = .logicBlock
  | elseClause, k, _, rest => k = .elseClause ∧ kindAt rest 0 ≠ .kwElse
  | elseIf, k, cs, rest =>
    k = .ifStmt ∧ (Tree.node k cs).isTerminated = false ∧ kindAt rest 0 ≠ .kwElse
  | update, k, cs, rest => k = .exprStmt ∧ (Tree.node k cs).isTerminated = false ∧
    TokenSet.exprFollow.contains (kindAt rest 0) = true
  | initializer, k, _, rest =>
    k = .initializer ∧ TokenSet.exprFollow.contains (kindAt rest 0) = true
  | expr, k, _, rest => TokenSet.exprNodes.contains k = true ∧
    TokenSet.exprFollow.contains (kindAt rest 0) = true
  | unary, k, _, rest => TokenSet.unaryNodes.contains k = true ∧
    TokenSet.unaryFollow.contains (kindAt rest 0) = true
  | operand, k, _, rest => TokenSet.operandNodes.contains k = true ∧
    TokenSet.unaryFollow.contains (kindAt rest 0) = true
  | target, k, _, rest => TokenSet.memberNodes.contains k = true ∧
    TokenSet.memberFollow.contains (kindAt rest 0) = true
  -- A name before a brace or a bracket would be taken for the name of a literal.
  | primary, k, cs, rest => TokenSet.primaryNodes.contains k = true ∧
    kindAt rest 0 ≠ .lCurly ∧
      (kindAt rest 0 = .lBracket → (Tree.node k cs).isScalarName = false)
  | accessor, k, _, _ => TokenSet.accessorNodes.contains k = true
  | prop, k, _, rest => k = .recordProp ∧ TokenSet.exprFollow.contains (kindAt rest 0) = true

namespace Tree

/-- A node is read in each of its roles. -/
def Readable : Tree → Prop
  | leaf _ _ => True
  | node k cs => ∀ (role : Role) rest, role.Fits k cs rest → role.step.Builds [node k cs] rest

/-- Of leaves nothing is asked. -/
@[simp] theorem readable_leaf (k : Kind) (text : String) : (leaf k text).Readable ↔ True := Iff.rfl

/-- What is known of a node before it is read: it is canonical, and its children are readable. -/
structure Prepared (k : Kind) (cs : List Tree) : Prop where
  shape : k.production.Matches cs
  arranged : k.arranges cs = true
  follows : FollowsAll cs
  canonical : allCanonical cs = true
  readable : ∀ t ∈ cs, t.Readable

variable {k j : Kind} {cs : List Tree} {shapes : List Shape} {rest : List (Kind × String)}

/-- Children that are prepared make a node that follows the grammar. -/
theorem Prepared.node_follows (h : Prepared k cs) : (node k cs).Follows :=
  (follows_node k cs).mpr ⟨h.shape, h.follows⟩

/-- The first token of a node is the one that its production starts with. -/
theorem first_of_production (hk : k.production = .row (.token j :: shapes))
    (h : (node k cs).Follows) (rest : List (Kind × String)) :
    kindAt (leavesOf cs ++ rest) 0 = j := by
  have hshape := ((follows_node k cs).mp h).1
  rw [hk, Shape.matches_token_cons] at hshape
  obtain ⟨text, us, rfl, -⟩ := hshape
  simp

/-- A list of types begins with a name. -/
theorem first_types (h : (node .typeList cs).Follows) (rest : List (Kind × String)) :
    kindAt (leavesOf cs ++ rest) 0 = .identifier := by
  obtain ⟨hshape, hfollows⟩ := (follows_node _ _).mp h
  simp only [Kind.production, Shape.matches_node_cons] at hshape
  obtain ⟨ds, us, rfl, -⟩ := hshape
  simp only [followsAll_cons] at hfollows
  simpa using first_of_production rfl hfollows.1 (leavesOf us ++ rest)

end Tree

end ScriptTree
