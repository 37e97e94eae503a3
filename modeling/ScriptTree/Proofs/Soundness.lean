import Mathlib
import ScriptTree.Outline
import ScriptTree.Proofs.Cleanness
import ScriptTree.Proofs.Forms
import ScriptTree.Proofs.Productions

/-!
# Trees without errors follow the grammar

Each rule that reads without mistakes adds trees of a certain shape to the frame (`Rule.Sound`).
This is shown rule by rule, with the rules that it calls taken for granted; `Rule.Parses.induct`
closes the circle.  The step of a rule and the production of its node are built alike, so a proof
goes through both side by side (`Shape.Covers`).

## Key results

- `Rule.sound`: what a rule adds to the frame
- `parse_follows`: a tree that was made without errors follows the grammar
-/

namespace ScriptTree

/-! ## Adding to the frame -/

/-- The trees that were added to the frame have a shape and follow the grammar. -/
def Shape.Adds (shape : Shape) (x x' : Reading) : Prop :=
  ∃ ts, x'.frame = x.frame ++ ts ∧ shape.Matches ts ∧ Tree.FollowsAll ts

/-- A step adds trees of a shape. -/
structure Shape.Covers (shape : Shape) (step : Step) : Prop where
  adds : ∀ {x y}, step x y → shape.Adds x y

namespace Shape.Adds

variable {a b : Shape} {x y z : Reading}

/-- What has a shape has any wider one. -/
theorem mono (hab : ∀ ts, a.Matches ts → b.Matches ts) (h : a.Adds x y) : b.Adds x y := by
  obtain ⟨ts, hframe, hmatches, hfollows⟩ := h
  exact ⟨ts, hframe, hab ts hmatches, hfollows⟩

/-- Trees of two shapes in sequence have the shape of the sequence. -/
theorem seq (h : a.Adds x y) (h' : b.Adds y z) : (Shape.seq a b).Adds x z := by
  obtain ⟨ts, hframe, hmatches, hfollows⟩ := h
  obtain ⟨us, hframe', hmatches', hfollows'⟩ := h'
  refine ⟨ts ++ us, ?_, ⟨ts, us, rfl, hmatches, hmatches'⟩, by simp [hfollows, hfollows']⟩
  rw [hframe', hframe, List.append_assoc]

/-- One more tree of a shape may stand in front of many. -/
theorem many (h : a.Adds x y) (h' : (Shape.many a).Adds y z) : (Shape.many a).Adds x z := by
  refine (h.seq h').mono fun ts hts => ?_
  obtain ⟨us, vs, rfl, hus, hvs⟩ := hts
  exact matches_many_append hus hvs

/-- A node whose children have the right shape. -/
theorem node {k : Kind} (h : k.production.Adds ⟨x.input, []⟩ y) :
    (Shape.node k).Adds x ⟨y.input, x.frame ++ [Tree.node k y.frame]⟩ := by
  obtain ⟨ts, hframe, hmatches, hfollows⟩ := h
  rw [List.nil_append] at hframe
  refine ⟨_, rfl, ⟨_, rfl, by simp⟩, ?_⟩
  simp [Tree.follows_node, hframe, hmatches, hfollows]

/-- A single node of a set. -/
theorem nodes_iff {set : TokenSet} : (Shape.nodes set).Adds x y ↔
    ∃ k cs, set.contains k = true ∧ y.frame = x.frame ++ [Tree.node k cs] ∧
      (Tree.node k cs).Follows := by
  constructor
  · intro h
    obtain ⟨-, hframe, ⟨t, rfl, ht⟩, hfollows⟩ := h
    cases t with
    | leaf j text => simp at ht
    | node k cs => exact ⟨k, cs, ht, hframe, by simpa using hfollows⟩
  · intro h
    obtain ⟨k, cs, hk, hframe, hfollows⟩ := h
    exact ⟨_, hframe, ⟨_, rfl, hk⟩, by simpa using hfollows⟩

/-- A node of a set is one of any larger set. -/
private theorem nodesMono {set set' : TokenSet}
    (hset : ∀ k, set.contains k = true → set'.contains k = true)
    (h : (Shape.nodes set).Adds x y) : (Shape.nodes set').Adds x y := by
  obtain ⟨j, cs, hj, hframe, hfollows⟩ := nodes_iff.mp h
  exact nodes_iff.mpr ⟨j, cs, hset j hj, hframe, hfollows⟩

/-- A node of one kind is one of any set with that kind. -/
theorem nodes {k : Kind} {set : TokenSet} (hk : set.contains k = true)
    (h : (Shape.node k).Adds x y) : (Shape.nodes set).Adds x y := by
  refine nodesMono (fun j hj => ?_) h
  have hj : j = k := by simpa using hj
  rw [hj, hk]

end Shape.Adds

namespace Shape.Covers

variable {shape a b : Shape} {shapes : List Shape} {k : Kind} {set set' : TokenSet}
  {step other : Step} {steps : List Step} {c : List (Kind × String) → Bool}

/-- A step is as good as its form. -/
theorem of_form (hform : ∀ {x y}, step x y ↔ other x y) (h : a.Covers other) : a.Covers step :=
  ⟨fun hstep => h.adds (hform.mp hstep)⟩

/-- What has a shape has any wider one. -/
theorem mono (hab : ∀ ts, a.Matches ts → b.Matches ts) (h : a.Covers step) : b.Covers step :=
  ⟨fun hstep => (h.adds hstep).mono hab⟩

/-- A call is covered if what it leads to is. -/
theorem call {calls : Calls} {rule : Rule} (h : ∀ {x b y}, calls rule x b y → a.Adds x y) :
    a.Covers (calls.To rule) := by
  constructor
  intro x y hcall
  obtain ⟨b, hcall⟩ := hcall
  exact h hcall

/-- A token covers the step that eats it. -/
theorem token : (Shape.token k).Covers (.token k) := by
  constructor
  intro x y h
  obtain ⟨text, -, hframe⟩ := h
  exact ⟨_, hframe, ⟨_, rfl, by simp⟩, by simp⟩

/-- A set of tokens covers the step that eats one of them. -/
theorem tokens : (Shape.tokens set).Covers (.tokens set) := by
  constructor
  intro x y h
  obtain ⟨hk, text, -, hframe⟩ := h
  exact ⟨_, hframe, ⟨_, rfl, hk⟩, by simp⟩

/-- Nothing is added. -/
theorem skip (h : a.Matches []) : a.Covers (.row []) :=
  ⟨fun hskip => ⟨[], by rw [hskip, List.append_nil], h, by simp⟩⟩

theorem nil : (row []).Covers (.row []) := skip rfl

/-- A row of shapes covers a row of steps one by one. -/
theorem cons (h : a.Covers step) (h' : (row shapes).Covers (.row steps)) :
    (row (a :: shapes)).Covers (.row (step :: steps)) := by
  constructor
  intro x z hrow
  obtain ⟨y, hstep, hrow⟩ := hrow
  exact (h.adds hstep).seq (h'.adds hrow)

/-- The last step may stand for several parts. -/
theorem last (h : a.Covers step) : a.Covers (.row [step]) := by
  constructor
  intro x z hrow
  obtain ⟨y, hstep, rfl⟩ := hrow
  exact h.adds hstep

/-- Any other step may stand for several parts, too. -/
theorem append {parts : List Shape} (h : (row parts).Covers step)
    (h' : (row shapes).Covers (.row steps)) :
    (row (parts ++ shapes)).Covers (.row (step :: steps)) :=
  (cons h h').mono fun _ => matches_row_cons.mp

/-- A shape covers a branch if it covers both ways. -/
theorem branch (h : a.Covers step) (h' : a.Covers other) : a.Covers (.branch c step other) := by
  constructor
  intro x y hbranch
  unfold Step.branch at hbranch
  split at hbranch
  · exact h.adds hbranch
  · exact h'.adds hbranch

/-- A shape covers a branch if it covers the way that is taken under its condition. -/
private theorem branchIf (h : a.Covers (.guarded c step)) (h' : a.Covers other) :
    a.Covers (.branch c step other) := by
  constructor
  intro x y hbranch
  unfold Step.branch at hbranch
  split at hbranch
  next hc => exact h.adds ⟨hc, hbranch⟩
  · exact h'.adds hbranch

/-- A guard makes no difference to what is covered. -/
theorem guarded (h : a.Covers step) : a.Covers (.guarded c step) :=
  ⟨fun hguarded => h.adds hguarded.2⟩

/-- What is optional covers no step. -/
theorem none : (opt a).Covers (.row []) := skip (.inl rfl)

/-- What is optional covers the step that it is an option for. -/
theorem some (h : a.Covers step) : (opt a).Covers step := h.mono fun _ => .inr

/-- What is optional covers a step that may be left out. -/
theorem may (h : a.Covers step) : (opt a).Covers (.may k step) := branch (some h) none

theorem mayToken : (opt (Shape.token k)).Covers (.mayToken k) := may token

/-- An optional part is left out. -/
theorem skipped (h : (row shapes).Covers step) : (row (opt a :: shapes)).Covers step :=
  h.mono fun _ hts => matches_opt_cons.mpr (.inl hts)

/-- An alternative covers what its first shape covers. -/
theorem inl (h : a.Covers step) : (alt a b).Covers step := h.mono fun _ => .inl

/-- An alternative covers what its second shape covers. -/
theorem inr (h : b.Covers step) : (alt a b).Covers step := h.mono fun _ => .inr

/-- What is repeated covers no step. -/
private theorem manyNil : (many a).Covers (.row []) := skip (by simp)

/-- The steps of one instance, and then more. -/
private theorem manyAppend (h : a.Covers (.row steps)) (h' : (many a).Covers other) :
    (many a).Covers (.row (steps ++ [other])) := by
  constructor
  intro x z hrow
  obtain ⟨y, hsteps, w, hother, rfl⟩ := Step.row_append_iff.mp hrow
  exact (h.adds hsteps).many (h'.adds hother)

/-- What is repeated covers one repetition and then the others. -/
private theorem manyCons (h : a.Covers step) (h' : (many a).Covers (.row steps)) :
    (many a).Covers (.row (step :: steps)) := by
  constructor
  intro x z hrow
  obtain ⟨y, hstep, hrow⟩ := hrow
  exact (h.adds hstep).many (h'.adds hrow)

/-- The step of a manifold part may be left out. -/
private theorem manyMay (h : a.Covers step) (h' : (many a).Covers (.row steps)) :
    (many a).Covers (.row (.may k step :: steps)) := by
  constructor
  intro x z hrow
  rw [Step.row_may_iff] at hrow
  split at hrow
  · obtain ⟨y, hstep, hrow⟩ := hrow
    exact (h.adds hstep).many (h'.adds hrow)
  · exact h'.adds hrow

/-- A node covers the step that makes it, if its production covers the step inside. -/
theorem node (h : k.production.Covers step) : (Shape.node k).Covers (.node k step) := by
  constructor
  intro x x' hnode
  obtain ⟨y, hstep, rfl⟩ := hnode
  exact .node (h.adds hstep)

/-- A node that has no semicolon of its own. -/
theorem bare (hk : k.production = row (shapes ++ [terminator]))
    (hbare : ∀ ts, (row shapes).Matches ts → (Tree.node k ts).isTerminated = false)
    (h : (row shapes).Covers step) : (one (.bare k)).Covers (.node k step) := by
  constructor
  intro x x' hnode
  obtain ⟨y, hstep, rfl⟩ := hnode
  obtain ⟨ts, hframe, hmatches, hfollows⟩ := h.adds hstep
  rw [List.nil_append] at hframe
  subst hframe
  have hproduction : k.production.Matches y.frame := by
    rw [hk, ← matches_row_cons]
    exact ⟨y.frame, [], by simp, hmatches, [], [], rfl, .inl rfl, rfl⟩
  exact ⟨_, rfl, ⟨_, rfl, fits_bare.mpr ⟨_, rfl, hbare _ hmatches⟩⟩,
    by simp [Tree.follows_node, hproduction, hfollows]⟩

/-- The condition of the list tells what the first token is. -/
private theorem nodeAny (h : k.production.Covers (.row (.tokens set :: steps))) :
    (Shape.node k).Covers (.guarded (Step.isAtAny set) (.node k (.row (.any :: steps)))) := by
  constructor
  intro x x' hguarded
  obtain ⟨hset, y, ⟨z, hany, hrow⟩, rfl⟩ := hguarded
  exact .node (h.adds ⟨z, ⟨hset, hany⟩, hrow⟩)

/-- A node of one kind is one of any set with that kind. -/
theorem nodes (hk : set.contains k = true) (h : (Shape.node k).Covers step) :
    (Shape.nodes set).Covers step := ⟨fun hstep => (h.adds hstep).nodes hk⟩

/-- A node of a set is one of any larger set. -/
private theorem nodesMono (hset : ∀ k, set.contains k = true → set'.contains k = true)
    (h : (Shape.nodes set).Covers step) : (Shape.nodes set').Covers step :=
  ⟨fun hstep => (h.adds hstep).nodesMono hset⟩

/-- Nodes that semicolons may stand between cover what nodes cover. -/
theorem orSemicolon (h : (Shape.nodes set).Covers step) : (Shape.orSemicolon set).Covers step := by
  constructor
  intro x y hstep
  obtain ⟨j, cs, hj, hframe, hfollows⟩ := Adds.nodes_iff.mp (h.adds hstep)
  exact ⟨_, hframe, ⟨_, rfl, hj⟩, by simpa using hfollows⟩

/-- Nodes that semicolons may stand between cover a semicolon. -/
private theorem semicolon : (Shape.orSemicolon set).Covers (.token .semiColon) := by
  constructor
  intro x y h
  obtain ⟨text, -, hframe⟩ := h
  exact ⟨_, hframe, ⟨_, rfl, by simp⟩, by simp⟩

/-- An element, and after a comma more of them. -/
theorem listed (h : (Shape.nodes set).Covers step) (h' : (Shape.listed (.nodes set)).Covers other)
    {d : List (Kind × String) → Bool} : (Shape.listed (.nodes set)).Covers
      (.row [step, .branch c (.row [.token .comma, other]) (.guarded d (.row []))]) := by
  constructor
  intro x z hrow
  obtain ⟨y, hstep, hrow⟩ := hrow
  obtain ⟨j, cs, hj, hframe, hfollows⟩ := Adds.nodes_iff.mp (h.adds hstep)
  obtain ⟨z, hrest, rfl⟩ := hrow
  unfold Step.branch at hrest
  split at hrest
  · obtain ⟨w, ⟨text, -, hcomma⟩, w', hother, rfl⟩ := hrest
    obtain ⟨us, hframe', hmatches, hfollows'⟩ := h'.adds hother
    refine ⟨.node j cs :: .leaf .comma text :: us, ?_, ?_, by simp [hfollows, hfollows']⟩
    · rw [hframe', hcomma, hframe]
      simp
    · exact matches_listed_iff.mpr (.inr ⟨j, cs, hj, .inr ⟨text, us, rfl, hmatches⟩⟩)
  · obtain ⟨-, rfl⟩ := hrest
    exact ⟨_, hframe, matches_listed_iff.mpr (.inr ⟨j, cs, hj, .inl rfl⟩), by simpa using hfollows⟩

end Shape.Covers

/-! ## Filling a frame -/

/-- A step from an empty frame fills it with trees of a shape. -/
structure Shape.Fills (shape : Shape) (step : Step) : Prop where
  adds : ∀ {input y}, step ⟨input, []⟩ y → shape.Adds ⟨input, []⟩ y

namespace Shape.Fills

variable {a b : Shape} {shapes : List Shape} {k : Kind} {set : TokenSet}
  {step other : Step} {c : List (Kind × String) → Bool}

/-- A node of one kind is one of any set with that kind. -/
theorem nodes (hk : set.contains k = true) (h : (Shape.node k).Fills step) :
    (Shape.nodes set).Fills step := ⟨fun hstep => (h.adds hstep).nodes hk⟩

/-- A shape covers a branch if it covers both ways. -/
theorem branch {first : Step} (h : a.Fills (.row [first, step]))
    (h' : a.Fills (.row [first, other])) : a.Fills (.row [first, .branch c step other]) := by
  constructor
  intro input z hrow
  obtain ⟨y, hfirst, z, hbranch, rfl⟩ := hrow
  unfold Step.branch at hbranch
  split at hbranch
  · exact h.adds ⟨y, hfirst, _, hbranch, rfl⟩
  · exact h'.adds ⟨y, hfirst, _, hbranch, rfl⟩

/-- There may be nothing to wrap. -/
private theorem alone {first : Step} (h : a.Covers first) : a.Fills (.row [first, .row []]) := by
  constructor
  intro input z hrow
  obtain ⟨y, hfirst, _, rfl, rfl⟩ := hrow
  exact h.adds hfirst

/-- What stands in the frame becomes the first child. -/
theorem wrap {first : Step} (hk : k.production = row (a :: shapes)) (hfirst : a.Covers first)
    (h : (row shapes).Covers step) : (Shape.node k).Fills (.row [first, .wrap k step]) := by
  constructor
  intro input z hrow
  obtain ⟨y, hy, _, ⟨w, hstep, rfl⟩, rfl⟩ := hrow
  refine .node ?_
  rw [hk]
  exact (hfirst.adds hy).seq (h.adds hstep)

/-- What was kept apart is added to the frame. -/
theorem group (h : a.Fills step) : a.Covers (.group step) := by
  constructor
  intro x x' hgroup
  obtain ⟨y, hstep, rfl⟩ := hgroup
  obtain ⟨ts, hframe, hmatches, hfollows⟩ := h.adds hstep
  rw [List.nil_append] at hframe
  exact ⟨ts, by rw [hframe], hmatches, hfollows⟩

end Shape.Fills

/-! ## What each rule adds -/

/-- What the elements of a list are. -/
def ListForm.elementNodes : ListForm → TokenSet
  | params => .single .param
  | callArgs | array => .exprNodes
  | record => .single .recordProp

namespace Rule

/-- What a rule adds to the frame. -/
@[simp] def Sound : Calls
  | .program, x, _, x' => (Kind.production .program).Adds x x'
  | .imports, x, _, x' => (Shape.many (.node .importDecl)).Adds x x'
  | .items, x, _, x' => (Shape.many (.orSemicolon .itemNodes)).Adds x x'
  | .item, x, _, x' => (Shape.nodes .itemNodes).Adds x x'
  | .importDecl, x, _, x' => (Shape.node .importDecl).Adds x x'
  | .fnDecl, x, _, x' => (Shape.node .fnDecl).Adds x x'
  | .fnTail, x, _, x' => (Kind.production .fnLiteral).Adds x x'
  | .param, x, _, x' => Step.isAtAny ListForm.params.first x.input = true →
    (Shape.node .param).Adds x x'
  | .typeDecl, x, _, x' => (Shape.node .typeDecl).Adds x x'
  | .members, x, _, x' => (Shape.many (.orSemicolon (.single .typeMember))).Adds x x'
  | .member, x, _, x' => (Shape.node .typeMember).Adds x x'
  | .statements seen, x, a, x' =>
    ∃ ts, x'.frame = x.frame ++ ts ∧ (Shape.many (.orSemicolon .stmtNodes)).Matches ts ∧
      Tree.FollowsAll ts ∧ (a = true → seen = true ∨ ∃ t ∈ ts, t.isNode = true)
  | .statement, x, _, x' => (Shape.nodes .stmtNodes).Adds x x'
  | .block, x, _, x' => (Shape.node .block).Adds x x'
  | .body, x, _, x' => (Shape.node .logicBlock).Adds x x'
  | .ifStmt true, x, _, x' => (Shape.node .ifStmt).Adds x x'
  | .ifStmt false, x, _, x' => (Shape.one (.bare .ifStmt)).Adds x x'
  | .initializer, x, _, x' => (Shape.node .initializer).Adds x x'
  | .expr, x, _, x' => Shape.expr.Adds x x'
  -- A chain takes all of its frame as the first operand.
  | .chain, x, _, x' => x.frame = [] → Shape.expr.Adds x x'
  | .prefixes 0, x, _, x' => (Shape.nodes .unaryNodes).Adds x x'
  | .prefixes 1, x, _, x' => (Shape.nodes .operandNodes).Adds x x'
  | .prefixes (_ + 2), _, _, _ => True
  | .operand, x, _, x' => (Shape.nodes .operandNodes).Adds x x'
  | .accessors true, x, _, x' => (Shape.many (.nodes .accessorNodes)).Adds x x'
  -- The first accessor takes the frame as the base.
  | .accessors false, x, _, x' =>
    (Shape.nodes .primaryNodes).Adds ⟨x.input, []⟩ x →
      (Shape.nodes .memberNodes).Adds ⟨x.input, []⟩ x'
  | .primary, x, _, x' => (Shape.nodes .primaryNodes).Adds x x'
  | .elements form, x, _, x' => (Shape.listed (.nodes form.elementNodes)).Adds x x'
  | .recordProp, x, _, x' =>
    Step.isAtAny ListForm.record.first x.input = true → (Shape.node .recordProp).Adds x x'
  | .typeList, x, _, x' => (Shape.node .typeList).Adds x x'
  | .unionTail, x, _, x' => (Shape.many (.row [.token .pipe, .node .typeName])).Adds x x'
  | .typeName, x, _, x' => (Shape.node .typeName).Adds x x'
  | .typeArgTail, x, _, x' => (Shape.many (.row [.token .comma, .node .typeList])).Adds x x'
  | .discard _, _, _, _ | .skipTo _, _, _, _ => True

end Rule

namespace Grammar

open Rule (Sound)
open Shape

variable {x x' : Reading} {a : Bool}

/-! ## Types -/

/-- The production of `type (| type)*` covers what its rule reads. -/
private theorem covers_typeList : (node .typeList).Covers (typeList.unit.Leads true Sound) :=
  .of_form leads_typeList (.node (.cons (.call id) (.cons (.call id) .nil)))

/-- The production of `(| type)*` covers what its rule reads. -/
private theorem covers_unionTail :
    (many (row [token .pipe, node .typeName])).Covers (unionTail.unit.Leads true Sound) := by
  have hfirst : (row [token .pipe, node .typeName]).Covers
      (.row [.token .pipe, Calls.To Sound .typeName]) := .cons .token (.cons (.call id) .nil)
  exact .of_form leads_unionTail (.branch (.manyAppend hfirst (.call id)) .manyNil)

/-- The production of a type name covers what its rule reads. -/
private theorem covers_typeName : (node .typeName).Covers (typeName.unit.Leads true Sound) := by
  have hargs : (node .typeArgs).Covers (.node .typeArgs (.row [.token .less,
      Calls.To Sound .typeList, Calls.To Sound .typeArgTail, .token .greater])) :=
    .node (.cons .token (.cons (.call id) (.cons (.call id) (.cons .token .nil))))
  exact .of_form leads_typeName (.node (.cons .token (.cons (.may hargs) .nil)))

/-- The production of `(, types)*` covers what its rule reads. -/
private theorem covers_typeArgTail :
    (many (row [token .comma, node .typeList])).Covers (typeArgTail.unit.Leads true Sound) := by
  have hfirst : (row [token .comma, node .typeList]).Covers
      (.row [.token .comma, Calls.To Sound .typeList]) := .cons .token (.cons (.call id) .nil)
  exact .of_form leads_typeArgTail (.branch (.manyAppend hfirst (.call id)) .manyNil)

/-! ## Declarations -/

/-- The production of `import* (item ;?)*` covers what its rule reads. -/
private theorem covers_program :
    (Kind.production .program).Covers (program.unit.Leads true Sound) :=
  .of_form leads_program (.cons (.call id) (.cons (.call id) .nil))

/-- The production of `import*` covers what its rule reads. -/
private theorem covers_imports : (many (node .importDecl)).Covers (imports.unit.Leads true Sound) :=
  .of_form leads_imports (.branch (.manyCons (.call id) (.last (.call id))) .manyNil)

/-- The production of `(item ;?)*` covers what its rule reads. -/
private theorem covers_items :
    (many (orSemicolon .itemNodes)).Covers (items.unit.Leads true Sound) := by
  have hsemicolon : (many (orSemicolon .itemNodes)).Covers
      (.row [.token .semiColon, Calls.To Sound .items]) := .manyCons .semicolon (.last (.call id))
  have hitem : (many (orSemicolon .itemNodes)).Covers
      (.row [Calls.To Sound .item, .mayToken .semiColon, Calls.To Sound .items]) :=
    .manyCons (.orSemicolon (.call id)) (.manyMay .semicolon (.last (.call id)))
  exact .of_form leads_items (.branch .manyNil (.branch (.guarded hsemicolon) hitem))

/-- An item is covered by its production. -/
private theorem covers_item : (nodes .itemNodes).Covers (item.unit.Leads true Sound) := by
  have hstatement : (nodes .itemNodes).Covers (Calls.To Sound .statement) :=
    .nodesMono (fun k hk => by simp [TokenSet.itemNodes, hk]) (.call id)
  exact .of_form leads_item (.branch (.nodes (k := .fnDecl) (by decide) (.call id))
    (.branch (.nodes (k := .typeDecl) (by decide) (.call id)) (.guarded hstatement)))

/-- The production of `import "path" ;?` covers what its rule reads. -/
private theorem covers_importDecl : (node .importDecl).Covers (importDecl.unit.Leads true Sound) :=
  .of_form leads_importDecl (.node (.cons .token (.cons .tokens (.cons .mayToken .nil))))

/-- The production of `function name ( params ) (: types)? { ... }` covers what its rule reads. -/
private theorem covers_fnDecl : (node .fnDecl).Covers (fnDecl.unit.Leads true Sound) :=
  .of_form leads_fnDecl (.node (.cons .token (.cons .token (.last (.call id)))))

/-- The production of `( params ) (: types)? { ... }` covers what its rule reads. -/
private theorem covers_fnTail :
    (Kind.production .fnLiteral).Covers (fnTail.unit.Leads true Sound) := by
  have hparams : (node .paramList).Covers (.node .paramList (delimitedStep Sound .params)) :=
    .node (.cons .token (.cons (.call id) (.cons .token .nil)))
  have htypes : Shape.ascription.Covers (.row [.token .colon, Calls.To Sound .typeList]) :=
    .cons .token (.cons (.call id) .nil)
  exact .of_form leads_fnTail (.cons hparams (.cons (.may htypes) (.cons (.call id) .nil)))

/-- The production of `name : types` covers what its rule reads. -/
private theorem covers_param : (node .param).Covers
    (.guarded (Step.isAtAny ListForm.params.first) (param.unit.Leads true Sound)) :=
  .of_form (and_congr_right fun _ => leads_param)
    (.nodeAny (.cons .tokens (.cons .token (.cons (.call id) .nil))))

/-- The production of `open? type Name { member* }` covers what its rule reads. -/
private theorem covers_typeDecl : (node .typeDecl).Covers (typeDecl.unit.Leads true Sound) :=
  .of_form leads_typeDecl (.node (.cons .mayToken (.cons .token (.cons .token (.cons .token
    (.cons (.call id) (.cons .token .nil)))))))

/-- The loop over the members of a type is covered by its production. -/
private theorem covers_members :
    (many (orSemicolon (.single .typeMember))).Covers (members.unit.Leads true Sound) := by
  have hsemicolon : (many (orSemicolon (.single .typeMember))).Covers
      (.row [.token .semiColon, Calls.To Sound .members]) := .manyCons .semicolon (.last (.call id))
  have hmember : (many (orSemicolon (.single .typeMember))).Covers
      (.row [Calls.To Sound .member, Calls.To Sound .members]) :=
    .manyCons (.orSemicolon (.call id)) (.last (.call id))
  exact .of_form leads_members (.branch .manyNil (.branch .manyNil
    (.branch (.guarded hsemicolon) (.guarded hmember))))

/-- The production of `(private static? | static private?)? (function ... | attribute) ;?` covers
    what its rule reads. -/
private theorem covers_typeMember :
    (node .typeMember).Covers (typeMember.unit.Leads true Sound) := by
  have hmodifiers : (opt (alt (row [token .kwPrivate, opt (token .kwStatic)])
      (row [token .kwStatic, opt (token .kwPrivate)]))).Covers modifiers :=
    .branch (.some (.inl (.cons .token (.cons .mayToken .nil))))
      (.branch (.some (.inr (.cons .token (.cons .mayToken .nil)))) .none)
  have hattr : (node .attrDecl).Covers (.node .attrDecl (.row [.token .identifier, .token .colon,
      Calls.To Sound .typeList, .may .eq (Calls.To Sound .initializer)])) :=
    .node (.cons .token (.cons .token (.cons (.call id) (.cons (.may (.call id)) .nil))))
  have hdeclaration : (nodes (.ofList [.fnDecl, .attrDecl])).Covers (declaration Sound) :=
    .branch (.nodes (k := .fnDecl) (by decide) (.call id)) (.nodes (by decide) hattr)
  exact .of_form leads_typeMember (.node (.cons hmodifiers (.cons hdeclaration
    (.cons .mayToken .nil))))

/-! ## Statements -/

/-- Statements after something else that belongs between them. -/
private theorem sound_statements_cons {seen seen' : Bool} {y : Reading}
    (hfirst : (orSemicolon .stmtNodes).Adds x y)
    (hseen : seen' = true → seen = true ∨ (nodes .stmtNodes).Adds x y)
    (h : Sound (.statements seen') y a x') : Sound (.statements seen) x a x' := by
  obtain ⟨ts, hframe, hmatches, hfollows⟩ := hfirst
  obtain ⟨us, hframe', hmatches', hfollows', hanswer⟩ := h
  refine ⟨ts ++ us, by rw [hframe', hframe, List.append_assoc],
    matches_many_append hmatches hmatches', by simp [hfollows, hfollows'], ?_⟩
  intro ha
  obtain hseen' | ⟨t, ht, hnode⟩ := hanswer ha
  · obtain hseen | hstatement := hseen hseen'
    · exact .inl hseen
    · obtain ⟨j, cs, -, hframe'', -⟩ := Adds.nodes_iff.mp hstatement
      obtain rfl := List.append_cancel_left (hframe.symm.trans hframe'')
      exact .inr ⟨_, List.mem_append_left us List.mem_cons_self, rfl⟩
  · exact .inr ⟨t, List.mem_append_right ts ht, hnode⟩

/-- A loop over statements adds statements, and says whether there was one. -/
private theorem sound_statements {seen : Bool}
    (h : (statements seen).script.Reads true Sound x a x') : Sound (.statements seen) x a x' := by
  rw [reads_statements] at h
  split at h
  · obtain ⟨rfl, rfl⟩ := h
    exact ⟨[], by simp, by simp, by simp, .inl⟩
  split at h
  · obtain ⟨-, y, hsemicolon, hrest⟩ := h
    exact sound_statements_cons (Covers.semicolon.adds hsemicolon) .inl hrest
  · obtain ⟨-, y, ⟨b, hstatement⟩, hrest⟩ := h
    have hstatements : (nodes .stmtNodes).Covers (Calls.To Sound .statement) := .call id
    have hfirst : (orSemicolon .stmtNodes).Adds x y := hstatements.orSemicolon.adds ⟨b, hstatement⟩
    exact sound_statements_cons hfirst (fun _ => .inr hstatement) hrest

/-- A body that has a statement splits around it. -/
private theorem covers_statements :
    (row [many (orSemicolon .stmtNodes), nodes .stmtNodes, many (orSemicolon .stmtNodes)]).Covers
      (fun x y => Sound (.statements false) x true y) := by
  constructor
  intro x y h
  obtain ⟨ts, hframe, hmatches, hfollows, hanswer⟩ := h
  -- The answer tells that a statement was read, for none had been seen before.
  obtain hseen | ⟨t, ht, hnode⟩ := hanswer rfl
  · cases hseen
  obtain ⟨us, vs, rfl⟩ := List.append_of_mem ht
  rw [orSemicolon, matches_many_one] at hmatches
  simp only [List.mem_append, List.mem_cons] at hmatches
  have hus : (many (orSemicolon .stmtNodes)).Matches us :=
    matches_many_one.mpr fun u hu => hmatches u (.inl hu)
  have hvs : (many (orSemicolon .stmtNodes)).Matches vs :=
    matches_many_one.mpr fun v hv => hmatches v (.inr (.inr hv))
  have hfits := hmatches t (.inr (.inl rfl))
  cases t with
  | leaf j text => cases hnode
  -- A statement is a node.
  | node j cs =>
    have hstatement : (nodes .stmtNodes).Matches [.node j cs] := ⟨_, rfl, hfits⟩
    exact ⟨_, hframe, ⟨us, _, rfl, hus, [_], vs, rfl, hstatement, vs, [], by simp, hvs, rfl⟩,
      hfollows⟩

/-- The production of `{ statement+ } ;?` covers what its rule reads. -/
private theorem covers_block : (node .block).Covers (block.unit.Leads true Sound) :=
  .of_form leads_block (.node (.cons .token (covers_statements.append
    (.cons .token (.cons .mayToken .nil)))))

/-- The production of `{ statement* }` covers what its rule reads. -/
private theorem covers_body : (node .logicBlock).Covers (body.unit.Leads true Sound) := by
  have hstatements :
      (many (orSemicolon .stmtNodes)).Covers (Calls.To Sound (.statements false)) := by
    apply Covers.call
    intro x b y h
    obtain ⟨ts, hframe, hmatches, hfollows, -⟩ := h
    exact ⟨ts, hframe, hmatches, hfollows⟩
  exact .of_form leads_body (.node (.cons .token (.cons hstatements (.cons .token .nil))))

/-- The production of `= expr` covers what its rule reads. -/
private theorem covers_initializer :
    (node .initializer).Covers (initializer.unit.Leads true Sound) :=
  .of_form leads_initializer (.node (.cons .token (.cons (.call id) .nil)))

/-- An `else` clause holds another `if` statement or a body. -/
private theorem covers_else : (node .elseClause).Covers (.node .elseClause (.row [.token .kwElse,
    .branch (Step.isAt .kwIf) (Calls.To Sound (.ifStmt false)) (Calls.To Sound .body)])) :=
  .node (.cons .token (.cons (.branch (.inl (.call id)) (.inr (.call id))) .nil))

/-- The production of `if ( expr ) { ... } (else (if ... | { ... }))? ;?` covers what its rule
    reads. -/
private theorem covers_ifStmt : (node .ifStmt).Covers ((ifStmt true).unit.Leads true Sound) :=
  .of_form leads_ifStmt (.node (.cons .token (.cons .token (.cons (.call id) (.cons .token
    (.cons (.call id) (.cons (.may covers_else) (.cons .mayToken .nil))))))))

/-- The statement after `else` leaves the semicolon to the one before. -/
private theorem covers_elseIf :
    (one (.bare .ifStmt)).Covers ((ifStmt false).unit.Leads true Sound) := by
  have hparts : (row [token .kwIf, token .lParen, Shape.expr, token .rParen, node .logicBlock,
      opt (node .elseClause)]).Covers (.row [.token .kwIf, .token .lParen,
        Calls.To Sound .expr, .token .rParen, Calls.To Sound .body, .may .kwElse (.node .elseClause
          (.row [.token .kwElse, .branch (Step.isAt .kwIf) (Calls.To Sound (.ifStmt false))
            (Calls.To Sound .body)])), .row []]) :=
    .cons .token (.cons .token (.cons (.call id) (.cons .token (.cons (.call id)
      (.cons (.may covers_else) (.last .nil))))))
  refine .of_form leads_ifStmt (.bare rfl ?_ hparts)
  intro ts hts
  simp only [Shape.expr, matches_token_cons, matches_nodes_cons, matches_node_cons,
    matches_opt_cons, matches_row_nil] at hts
  obtain ⟨_, _, rfl, _, _, rfl, _, _, _, rfl, -, _, _, rfl, _, _, rfl, hend⟩ := hts
  obtain rfl | ⟨_, _, rfl, rfl⟩ := hend <;> rfl

/-- An expression as a statement is covered by its production. -/
private theorem covers_exprStep : (node .exprStmt).Covers (exprStep Sound) :=
  .node (.cons (.call id) (.cons .mayToken .nil))

/-- A `while` statement is covered by its production. -/
private theorem covers_whileStep : (node .whileStmt).Covers (whileStep Sound) :=
  .node (.cons .token (.cons .token (.cons (.call id) (.cons .token (.cons (.call id)
    (.cons .mayToken .nil))))))

/-- A `for` statement is covered by its production. -/
private theorem covers_forStep : (node .forStmt).Covers (forStep Sound) := by
  have hupdate : (one (.bare .exprStmt)).Covers (.node .exprStmt (Calls.To Sound .expr)) := by
    have hexpr : (row [Shape.expr]).Covers (Calls.To Sound .expr) :=
      .mono (fun ts hts => ⟨ts, [], by simp, hts, rfl⟩) (.call id)
    refine .bare rfl ?_ hexpr
    intro ts hts
    simp only [Shape.expr, matches_nodes_cons, matches_row_nil] at hts
    obtain ⟨_, _, _, rfl, -, rfl⟩ := hts
    rfl
  exact .node (.cons .token (.cons .token (.cons .token (.cons .token (.cons (.call id)
    (.cons .token (.cons (.call id) (.cons .token (.cons (.guarded hupdate) (.cons .token
      (.cons (.call id) (.cons .mayToken .nil))))))))))))

/-- A declaration of a variable is covered by its production. -/
private theorem covers_varStep : (node .varStmt).Covers (varStep Sound) := by
  have htypes : Shape.ascription.Covers (.row [.token .colon, Calls.To Sound .typeList]) :=
    .cons .token (.cons (.call id) .nil)
  exact .node (.cons .token (.cons .token (.cons (.may htypes) (.cons (.may (.last (.call id)))
    (.cons .mayToken .nil)))))

/-- A `return` statement is covered by its production. -/
private theorem covers_returnStep : (node .returnStmt).Covers (returnStep Sound) :=
  .node (.cons .token (.cons (.call id) (.cons .mayToken .nil)))

/-- A statement is covered by its production. -/
private theorem covers_statement : (nodes .stmtNodes).Covers (statement.unit.Leads true Sound) := by
  have hexpr : (nodes .stmtNodes).Covers (exprStep Sound) := .nodes (by decide) covers_exprStep
  have hblock : (nodes .stmtNodes).Covers (Calls.To Sound .block) :=
    .nodes (k := .block) (by decide) (.call id)
  have hif : (nodes .stmtNodes).Covers (Calls.To Sound (.ifStmt true)) :=
    .nodes (k := .ifStmt) (by decide) (.call id)
  exact .of_form leads_statement (.branch (.branch hexpr hblock) (.branch hif
    (.branch (.nodes (by decide) covers_whileStep) (.branch (.nodes (by decide) covers_forStep)
      (.branch (.nodes (by decide) covers_varStep) (.branch (.nodes (by decide) covers_returnStep)
        (.guarded hexpr)))))))

/-! ## Expressions -/

/-- A chain that is called makes an expression of the operand in the frame. -/
private theorem fills_chain : Shape.expr.Fills (Calls.To Sound .chain) := by
  constructor
  intro input y h
  obtain ⟨b, h⟩ := h
  exact h rfl

/-- An expression is covered by its production. -/
private theorem covers_expr : Shape.expr.Covers (expr.unit.Leads true Sound) :=
  .of_form leads_expr (.guarded fills_chain.group)

/-- The production of `(! | + | -)? operand` covers what its rule reads. -/
private theorem covers_unary : (nodes .unaryNodes).Covers (.branch (Step.isAtAny .prefixOps)
    (Calls.To Sound (.prefixes 0)) (Calls.To Sound .operand)) := by
  have hoperand : (nodes .unaryNodes).Covers (Calls.To Sound .operand) :=
    .nodesMono (fun k hk => by simp [TokenSet.unaryNodes, hk]) (.call id)
  exact .branch (.call id) hoperand

/-- The operand and the operators after it are one expression. -/
private theorem fills_chainStep : Shape.expr.Fills (chain.unit.Leads true Sound) := by
  have hunary : Shape.expr.Covers (.branch (Step.isAtAny .prefixOps)
      (Calls.To Sound (.prefixes 0)) (Calls.To Sound .operand)) :=
    .nodesMono (fun k hk => by simp [TokenSet.exprNodes, hk]) covers_unary
  refine ⟨fun h => Fills.adds ?_ (leads_chain.mp h)⟩
  apply Fills.branch
  · exact .nodes (by decide) (.wrap rfl covers_unary (.cons .tokens
      (.cons (.guarded fills_chain.group) .nil)))
  apply Fills.branch
  · exact .nodes (by decide) (.wrap rfl covers_unary (.cons .token (.cons .token .nil)))
  · exact .alone hunary

/-- The first prefix operator makes a unary node, and without one there is an operand. -/
private theorem covers_prefixes_zero :
    (nodes .unaryNodes).Covers ((prefixes 0).unit.Leads true Sound) := by
  have hoperand : (nodes .unaryNodes).Covers (Calls.To Sound .operand) :=
    .nodesMono (fun k hk => by simp [TokenSet.unaryNodes, hk]) (.call id)
  exact .of_form leads_prefixes (.branch (.guarded (.nodes (by decide)
    (.node (.cons .tokens (.cons (.call id) .nil))))) (.guarded hoperand))

/-- A second prefix operator is a mistake, so only an operand comes after the first. -/
private theorem covers_prefixes_one :
    (nodes .operandNodes).Covers ((prefixes 1).unit.Leads true Sound) := by
  -- A second operator is one too many.
  have hno : (nodes .operandNodes).Covers (.guarded (fun _ => 1 ≠ 1)
      (.node .prefixExpr (.row [.tokens .prefixOps, Calls.To Sound (.prefixes 2)]))) :=
    ⟨fun h => by simp [Step.guarded] at h⟩
  exact .of_form leads_prefixes (.branch hno (.guarded (.call id)))

/-- A primary expression with its accessors is covered, with or without `new`. -/
private theorem covers_memberStep : (nodes .memberNodes).Covers (memberStep Sound) := by
  have hnew : (nodes .memberNodes).Covers (.node .memberExpr (.row [.token .kwNew,
      Calls.To Sound .primary, Calls.To Sound (.accessors true)])) :=
    .nodes (by decide) (.node (.inl (.cons .token (.cons (.call id) (.cons (.call id) .nil)))))
  apply Fills.group
  constructor
  intro input y h
  unfold Step.branch at h
  split at h
  · exact hnew.adds h
  · obtain ⟨z, ⟨b, hprimary⟩, w, ⟨c, haccessors⟩, rfl⟩ := h
    exact haccessors hprimary

/-- The production of `member (++ | --)?` covers what its rule reads. -/
private theorem covers_operand : (nodes .operandNodes).Covers (operand.unit.Leads true Sound) := by
  have hmember : (nodes .operandNodes).Covers (memberStep Sound) :=
    .nodesMono (fun k hk => by simp [TokenSet.operandNodes, hk]) covers_memberStep
  refine .of_form leads_operand (Fills.group ?_)
  apply Fills.branch
  · exact .nodes (by decide) (.wrap rfl covers_memberStep (.cons .tokens .nil))
  · exact .alone hmember

/-- Each accessor is covered by the production of its kind. -/
private theorem covers_accessorStep (b : Accessor) :
    (nodes .accessorNodes).Covers (accessorStep Sound b) := by
  cases b with
  | field => exact .nodes (by decide) (.node (.cons .token (.cons .tokens .nil)))
  | static => exact .nodes (by decide) (.node (.cons .token (.cons .token (.cons .tokens .nil))))
  | index =>
    exact .nodes (by decide) (.node (.cons .token (.cons (.call id) (.cons .token .nil))))
  | arguments =>
    exact .nodes (by decide) (.node (.cons .token (.cons (.call id) (.cons .token .nil))))
  | nonNull => exact .nodes (by decide) (.node .token)

/-- The loop over accessors adds accessors to what is wrapped. -/
private theorem sound_accessors {wrapped : Bool}
    (h : (accessors wrapped).unit.Leads true Sound x x') : Sound (.accessors wrapped) x a x' := by
  rw [leads_accessors] at h
  cases hat : accessorAt x.input with
  -- No accessor follows: the operand stays as it is.
  | none =>
    rw [hat] at h
    cases wrapped with
    | true => exact Covers.manyNil.adds h
    | false =>
      obtain rfl : x' = x := h
      intro hprimary
      exact hprimary.nodesMono fun k hk => by simp [TokenSet.memberNodes, hk]
  -- An accessor and the rest of them.
  | some b =>
    rw [hat] at h
    cases wrapped with
    | true => exact (Covers.manyCons (covers_accessorStep b) (.last (.call id))).adds h
    | false =>
      obtain ⟨y, hrow, rfl⟩ := h
      intro hprimary
      -- The operand in the frame becomes the first child of the expression.
      have hbase : (nodes .primaryNodes).Adds ⟨x.input, []⟩ x := hprimary
      have haccessors : (row [nodes .accessorNodes, many (nodes .accessorNodes)]).Adds x y :=
        (Covers.cons (covers_accessorStep b) (.cons (.call id) .nil)).adds hrow
      have hmember : (Kind.production .memberExpr).Adds ⟨x.input, []⟩ y :=
        (hbase.seq haccessors).mono fun _ => .inr
      exact .nodes (by decide) (.node hmember)

/-- A list between its delimiters is covered by `Shape.listed`. -/
private theorem covers_delimitedStep (form : ListForm) :
    (row [token form.delimiter.opener, Shape.listed (nodes form.elementNodes),
      token form.delimiter.closer]).Covers (delimitedStep Sound form) :=
  .cons .token (.cons (.call id) (.cons .token .nil))

/-- A primary expression is covered by its production. -/
private theorem covers_primary : (nodes .primaryNodes).Covers (primary.unit.Leads true Sound) := by
  -- The five nodes that a lookahead tells apart, each with its production.
  have hname : (nodes .primaryNodes).Covers (.branch startsArray
      (.node .arrayLiteral (.row [.token .identifier, delimitedStep Sound .array]))
      (.branch (kindAt · 1 == .lCurly)
        (.node .recordLiteral (.row [.token .identifier, delimitedStep Sound .record]))
        (.node .nameRef (.token .identifier)))) :=
    .branch (.nodes (by decide) (.node (.cons (.some .token)
        (.last (covers_delimitedStep .array)))))
      (.branch (.nodes (by decide) (.node (.cons (.some .token)
          (.last (covers_delimitedStep .record)))))
        (.nodes (by decide) (.node .token)))
  have hrecord : (node .recordLiteral).Covers
      (.node .recordLiteral (delimitedStep Sound .record)) :=
    .node (.skipped (covers_delimitedStep .record))
  have harray : (node .arrayLiteral).Covers (.node .arrayLiteral (delimitedStep Sound .array)) :=
    .node (.skipped (covers_delimitedStep .array))
  have hparen : (nodes .primaryNodes).Covers (.branch startsFnLiteral
      (.node .fnLiteral (Calls.To Sound .fnTail))
      (.node .parenExpr (.row [.token .lParen, Calls.To Sound .expr, .token .rParen]))) :=
    .branch (.nodes (by decide) (.node (.call id)))
      (.nodes (by decide) (.node (.cons .token (.cons (.call id) (.cons .token .nil)))))
  exact .of_form leads_primary (.branch hname
    (.branch (.nodes (by decide) (.node (.cons .token (.cons .token .nil))))
      (.branch (.nodes (by decide) hrecord) (.branch (.nodes (by decide) harray)
        (.branch hparen (.nodes (by decide) (.node .tokens)))))))

/-- The production of `name : expr` covers what its rule reads. -/
private theorem covers_recordProp : (node .recordProp).Covers
    (.guarded (Step.isAtAny ListForm.record.first) (recordProp.unit.Leads true Sound)) :=
  .of_form (and_congr_right fun _ => leads_recordProp)
    (.nodeAny (.cons .tokens (.cons .token (.cons (.call id) .nil))))

/-- An element is what the list is made of. -/
private theorem covers_element (form : ListForm) : (nodes form.elementNodes).Covers
    (.guarded (Step.isAtAny form.first) (Calls.To Sound form.element)) := by
  constructor
  intro x y h
  obtain ⟨hfirst, b, h⟩ := h
  cases form with
  | params => exact h hfirst
  | callArgs => exact h
  | array => exact h
  | record => exact h hfirst

/-- The loop over elements is covered by its production. -/
private theorem covers_elements {form : ListForm} :
    (Shape.listed (nodes form.elementNodes)).Covers ((elements form).unit.Leads true Sound) := by
  have hnil : (Shape.listed (nodes form.elementNodes)).Covers (.row []) :=
    .skip (matches_listed_iff.mpr (.inl rfl))
  have hrest : (Shape.listed (nodes form.elementNodes)).Covers (Calls.To Sound (.elements form)) :=
    .call id
  have hcons := (covers_element form).listed hrest (c := Step.isAt .comma)
    (d := fun i => !Step.isAtAny form.first i)
  exact .of_form leads_elements (.branch hnil (.branch hnil
    (.branchIf (.of_form Step.row_guarded_iff.symm hcons) (.guarded hnil))))

end Grammar

namespace Rule

open Grammar

variable {x x' : Reading} {a : Bool}

/-- What every script adds is sound, if what its calls add is. -/
private theorem sound_script (rule : Rule) (h : rule.script.Reads true Sound x a x') :
    rule.Sound x a x' := by
  -- One case for each rule, from its form.
  cases rule with
  | program => exact covers_program.adds ⟨a, h⟩
  | imports => exact covers_imports.adds ⟨a, h⟩
  | items => exact covers_items.adds ⟨a, h⟩
  | item => exact covers_item.adds ⟨a, h⟩
  | importDecl => exact covers_importDecl.adds ⟨a, h⟩
  | fnDecl => exact covers_fnDecl.adds ⟨a, h⟩
  | fnTail => exact covers_fnTail.adds ⟨a, h⟩
  | param => exact fun hfirst => covers_param.adds ⟨hfirst, a, h⟩
  | typeDecl => exact covers_typeDecl.adds ⟨a, h⟩
  | members => exact covers_members.adds ⟨a, h⟩
  | member => exact covers_typeMember.adds ⟨a, h⟩
  | statements seen => exact sound_statements h
  | statement => exact covers_statement.adds ⟨a, h⟩
  | block => exact covers_block.adds ⟨a, h⟩
  | body => exact covers_body.adds ⟨a, h⟩
  | ifStmt terminated =>
    cases terminated with
    | true => exact covers_ifStmt.adds ⟨a, h⟩
    | false => exact covers_elseIf.adds ⟨a, h⟩
  | initializer => exact covers_initializer.adds ⟨a, h⟩
  | expr => exact covers_expr.adds ⟨a, h⟩
  | chain =>
    -- A chain wraps what stands before it, so it is sound only on a frame that is empty.
    obtain ⟨input, frame⟩ := x
    intro hframe
    obtain rfl : frame = [] := hframe
    exact fills_chainStep.adds ⟨a, h⟩
  | prefixes count =>
    match count with
    | 0 => exact covers_prefixes_zero.adds ⟨a, h⟩
    | 1 => exact covers_prefixes_one.adds ⟨a, h⟩
    -- Statements answer whether one was read, which a block needs.
    | _ + 2 => trivial
  | operand => exact covers_operand.adds ⟨a, h⟩
  | accessors wrapped => exact sound_accessors ⟨a, h⟩
  | primary => exact covers_primary.adds ⟨a, h⟩
  | elements form => exact covers_elements.adds ⟨a, h⟩
  | recordProp => exact fun hfirst => covers_recordProp.adds ⟨hfirst, a, h⟩
  | typeList => exact covers_typeList.adds ⟨a, h⟩
  | unionTail => exact covers_unionTail.adds ⟨a, h⟩
  | typeName => exact covers_typeName.adds ⟨a, h⟩
  | typeArgTail => exact covers_typeArgTail.adds ⟨a, h⟩
  | discard stops | skipTo stops => trivial

/-- What is read without mistakes has the shape that the grammar demands. -/
theorem sound {rule : Rule} (h : rule.Parses true x a x') : rule.Sound x a x' :=
  Parses.induct (fun rule _ _ _ h => sound_script rule h) h

end Rule

/-! ## Parsing -/

namespace Tree

mutual

/-- What holds of a tree, and of the children whenever it holds of a node, holds of all nodes. -/
theorem forall_preorder {P : Tree → Prop} (hchild : ∀ k cs, P (node k cs) → ∀ c ∈ cs, P c)
    (t : Tree) (start : Nat) (h : P t) :
    ∀ e ∈ t.preorder start, e.tree.isNode = true ∧ P e.tree := by
  intro e he
  cases t with
  | leaf k text => cases he
  | node k cs =>
    rw [preorder] at he
    obtain rfl | he := List.mem_cons.mp he
    · exact ⟨rfl, h⟩
    · exact forall_preorderOf hchild cs start (hchild k cs h) e he

/-- What trees hand down to their children holds of all nodes in them. -/
private theorem forall_preorderOf {P : Tree → Prop} (hchild : ∀ k cs, P (node k cs) → ∀ c ∈ cs, P c)
    (ts : List Tree) (start : Nat) (h : ∀ t ∈ ts, P t) :
    ∀ e ∈ preorderOf start ts, e.tree.isNode = true ∧ P e.tree := by
  intro e he
  cases ts with
  | nil => cases he
  | cons t ts =>
    rw [preorderOf] at he
    obtain he | he := List.mem_append.mp he
    · exact forall_preorder hchild t start (h t List.mem_cons_self) e he
    · exact forall_preorderOf hchild ts _ (fun u hu => h u (List.mem_cons_of_mem t hu)) e he

end

/-- If erased trees follow the grammar, each of them does. -/
theorem follows_erase_of_mem {drop : Kind → Bool} {cs : List Tree}
    (h : FollowsAll (eraseAll drop cs)) : ∀ c ∈ cs, (c.erase drop).Follows := by
  intro c hc
  induction cs with
  | nil => cases hc
  | cons t ts ih =>
    rw [eraseAll] at h
    obtain rfl | hc := List.mem_cons.mp hc
    · cases c with
      | leaf k text => simp [erase]
      | node k cs => exact h.1
    · split at h
      · exact ih h hc
      · exact ih h.2 hc

/-- If a tree follows the grammar once the skipped leaves are gone, so does each of its nodes. -/
theorem preorder_follows {t : Tree} (h : t.significant.Follows) (start : Nat) :
    ∀ e ∈ t.preorder start, e.tree.isNode = true ∧ e.tree.significant.Follows := by
  refine forall_preorder (P := fun t => t.significant.Follows) (fun k cs h => ?_) t start h
  rw [significant, erase, follows_node] at h
  exact follows_erase_of_mem h.2

/-- A tree that follows the grammar once the skipped leaves are gone has no error node. -/
private theorem preorder_ne_error {t : Tree} (h : t.significant.Follows) (start : Nat) :
    ∀ e ∈ t.preorder start, e.kind ≠ .error := by
  intro e he hkind
  obtain ⟨hnode, hfollows⟩ := preorder_follows h start e he
  obtain ⟨t, start⟩ := e
  cases t with
  | leaf k text => cases hnode
  | node k cs =>
    obtain rfl : k = .error := hkind
    rw [significant, erase, follows_node] at hfollows
    exact hfollows.1

end Tree

/-- A parse that recovers from errors, but has met none, has met no lexical error either, and its
    tree follows the grammar. -/
theorem parse_significant_follows {o : Options} {source : String} {p : Parsed}
    (hrecovery : o.recovery = true) (hparse : parse o source = .ok (.ok p))
    (hclean : ∀ d ∈ p.diagnostics, d.isError = false) :
    (∀ t ∈ Token.lex source, t.kind.isLexError = false) ∧ p.tree.significant.Follows := by
  obtain ⟨hsorted, hbounded⟩ := Token.lex_sorted source
  obtain ⟨herrors, input, cs, ⟨a, hreads⟩, hsignificant⟩ :=
    parseLexed_reads hrecovery hsorted hbounded hparse hclean
  obtain ⟨ts, hframe, hmatches, hfollows⟩ := Rule.sound hreads
  obtain rfl : cs = ts := hframe
  rw [hsignificant, Tree.follows_node]
  exact ⟨herrors, hmatches, hfollows⟩

/-- The tree of a parse that recovers from errors, but has met none, has no error node and follows
    the grammar.  There may have been warnings. -/
theorem parse_follows (o : Options) (source : String) (p : Parsed) (hrecovery : o.recovery = true)
    (hparse : parse o source = .ok (.ok p)) (hclean : ∀ d ∈ p.diagnostics, d.isError = false) :
    p.tree.kind = .program ∧ (∀ e ∈ p.tree.preorder 0, e.kind ≠ .error) ∧
      (∀ label ∈ p.tree.leaves, label.1.isLexError = false) ∧ p.tree.significant.Follows := by
  obtain ⟨⟨children, htree⟩, hleaves⟩ := parseLexed_leaves hparse
  obtain ⟨herrors, hfollows⟩ := parse_significant_follows hrecovery hparse hclean
  refine ⟨by rw [htree]; rfl, Tree.preorder_ne_error hfollows 0, ?_, hfollows⟩
  rw [hleaves]
  intro label hlabel
  obtain ⟨t, ht, rfl⟩ := List.mem_map.mp hlabel
  exact herrors t ht

/-- One more semicolon than allowed is worth a warning, and the tree follows the grammar. -/
theorem parse_follows_redundantSemicolon :
    ∃ p, parse .default "a;;;" = .ok (.ok p) ∧ p.diagnostics.length = 1 ∧
      (∀ d ∈ p.diagnostics, d.isError = false) ∧
      p.tree.kind = .program ∧ (∀ e ∈ p.tree.preorder 0, e.kind ≠ .error) ∧
      (∀ label ∈ p.tree.leaves, label.1.isLexError = false) ∧ p.tree.significant.Follows := by
  have hparse : parse .default "a;;;" =
      .ok (.ok ⟨.node .program [.node .exprStmt [.node .nameRef [.leaf .identifier "a"],
        .leaf .semiColon ";"], .leaf .semiColon ";", .leaf .semiColon ";"],
        [.ofProblem .redundantSemicolon ⟨3, 4, by decide⟩]⟩) := by decide +kernel
  have hclean : ∀ d ∈ [Diagnostic.ofProblem .redundantSemicolon ⟨3, 4, by decide⟩],
      d.isError = false := by decide
  exact ⟨_, hparse, rfl, hclean, parse_follows .default "a;;;" _ rfl hparse hclean⟩

end ScriptTree
