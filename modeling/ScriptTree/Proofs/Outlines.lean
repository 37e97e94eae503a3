import ScriptTree.Outline
import ScriptTree.Proofs.Plans
import ScriptTree.Proofs.Ranges
import ScriptTree.Proofs.Recovery
import ScriptTree.Proofs.Soundness

/-!
# Outlines are complete

The accessors of a node pick its parts by kind and position alone.  `Outline.plan` says where the
grammar has the parts, and for a tree without mistakes the two agree: what an accessor returns is
what stands in the place of its part (`Element.Outlined`).

The two tables are compared kind by kind (`Outline.agrees_of_mem_fields` and the lemmas after it);
`Element.Roles.filter_eq` says what that means for a node.

## Key results

- `Element.outlined`: the outline of a node that follows the grammar is complete
- `parse_outlined`: all outlines are complete in a parse without errors
-/

namespace ScriptTree

namespace Outline

/-! ## The parts in the grammar -/

open Plan in
/-- The production of a kind, with the names of the parts. -/
def plan : Kind → Plan
  | .program => row [many (part "imports" (.node .importDecl)),
      many (orSemicolon "items" .itemNodes)]
  | .importDecl => row [plain (.token .kwImport), part "path" (.tokens .stringLiterals),
      plain .terminator]
  | .fnDecl => row [plain (.token .kwFunction), part "name" (.token .identifier),
      part "params" (.node .paramList),
      opt (row [plain (.token .colon), part "return_type" (.node .typeList)]),
      part "body" (.node .logicBlock)]
  | .fnLiteral => row [part "params" (.node .paramList),
      opt (row [plain (.token .colon), part "return_type" (.node .typeList)]),
      part "body" (.node .logicBlock)]
  | .paramList => row [plain (.token .lParen), listed (part "params" (.node .param)),
      plain (.token .rParen)]
  | .callArgs => row [plain (.token .lParen), listed (part "args" .expr), plain (.token .rParen)]
  | .arrayLiteral => row [opt (part "element_type" (.token .identifier)), plain (.token .lBracket),
      listed (part "elements" .expr), plain (.token .rBracket)]
  | .recordLiteral => row [opt (part "type_name" (.token .identifier)), plain (.token .lCurly),
      listed (part "props" (.node .recordProp)), plain (.token .rCurly)]
  | .param => row [part "name" (.token .identifier), plain (.token .colon),
      part "type_list" (.node .typeList)]
  | .typeDecl => row [opt (part "is_open" (.token .kwOpen)), plain (.token .kwType),
      part "name" (.token .identifier), plain (.token .lCurly),
      many (orSemicolon "members" (.single .typeMember)), plain (.token .rCurly)]
  | .typeMember => row [opt (alt
        (row [part "is_private" (.token .kwPrivate), opt (part "is_static" (.token .kwStatic))])
        (row [part "is_static" (.token .kwStatic), opt (part "is_private" (.token .kwPrivate))])),
      alt (part "function" (.node .fnDecl)) (part "attribute" (.node .attrDecl)),
      plain .terminator]
  | .attrDecl => row [part "name" (.token .identifier), plain (.token .colon),
      part "type_list" (.node .typeList), opt (part "initializer" (.node .initializer))]
  | .typeList => row [part "types" (.node .typeName),
      many (row [plain (.token .pipe), part "types" (.node .typeName)])]
  | .typeName => row [part "name" (.token .identifier), opt (part "args" (.node .typeArgs))]
  | .typeArgs => row [plain (.token .less), part "lists" (.node .typeList),
      many (row [plain (.token .comma), part "lists" (.node .typeList)]), plain (.token .greater)]
  | .block => row [plain (.token .lCurly), many (orSemicolon "statements" .stmtNodes),
      part "statements" (.nodes .stmtNodes), many (orSemicolon "statements" .stmtNodes),
      plain (.token .rCurly), plain .terminator]
  | .logicBlock => row [plain (.token .lCurly), many (orSemicolon "statements" .stmtNodes),
      plain (.token .rCurly)]
  | .ifStmt => row [plain (.token .kwIf), plain (.token .lParen), part "condition" .expr,
      plain (.token .rParen), part "then_block" (.node .logicBlock),
      opt (part "else_clause" (.node .elseClause)), plain .terminator]
  | .elseClause => row [plain (.token .kwElse),
      alt (part "if_stmt" (.one (.bare .ifStmt))) (part "block" (.node .logicBlock))]
  | .whileStmt => row [plain (.token .kwWhile), plain (.token .lParen), part "condition" .expr,
      plain (.token .rParen), part "body" (.node .logicBlock), plain .terminator]
  | .forStmt => row [plain (.token .kwFor), plain (.token .lParen),
      part "variable" (.token .identifier), plain (.token .eq), part "init" .expr,
      plain (.token .semiColon), part "condition" .expr, plain (.token .semiColon),
      part "update" (.one (.bare .exprStmt)), plain (.token .rParen),
      part "body" (.node .logicBlock), plain .terminator]
  | .varStmt => row [plain (.token .kwVar), part "name" (.token .identifier),
      opt (row [plain (.token .colon), part "type_list" (.node .typeList)]),
      opt (part "initializer" (.node .initializer)), plain .terminator]
  | .initializer => row [plain (.token .eq), part "value" .expr]
  | .exprStmt => row [part "expr" .expr, opt (part "has_semicolon" (.token .semiColon))]
  | .returnStmt => row [plain (.token .kwReturn), part "value" .expr, plain .terminator]
  | .binaryExpr => row [part "lhs" (.nodes .unaryNodes), part "operator" (.tokens .binaryOps),
      part "rhs" .expr]
  | .isExpr => row [part "operand" (.nodes .unaryNodes), plain (.token .kwIs),
      part "type_name" (.token .identifier)]
  | .prefixExpr => row [part "operator" (.tokens .prefixOps), part "operand" (.nodes .operandNodes)]
  | .postfixExpr => row [part "operand" (.nodes .memberNodes),
      part "operator" (.tokens .postfixOps)]
  | .memberExpr => alt
      (row [part "is_new" (.token .kwNew), part "base" (.nodes .primaryNodes),
        many (part "accessors" (.nodes .accessorNodes))])
      (row [part "base" (.nodes .primaryNodes), part "accessors" (.nodes .accessorNodes),
        many (part "accessors" (.nodes .accessorNodes))])
  | .fieldAccess => row [plain (.token .dot), part "name" (.tokens .identifierNames)]
  | .staticAccess => row [plain (.token .colon), plain (.token .colon),
      part "name" (.tokens .identifierNames)]
  | .indexAccess => row [plain (.token .lBracket), part "index" .expr, plain (.token .rBracket)]
  | .nonNullAssert => plain (.token .exclMark)
  | .nameRef => part "name" (.token .identifier)
  | .refLiteral => row [plain (.token .hash), part "name" (.token .identifier)]
  | .literal => part "token" (.tokens .literals)
  | .recordProp => row [part "name" (.tokens .identifierNames), plain (.token .colon),
      part "value" .expr]
  | .parenExpr => row [plain (.token .lParen), part "inner" .expr, plain (.token .rParen)]
  | _ => never

/-- Parts that a node need not have. -/
def optional : Kind → List String
  | .program => ["imports", "items"]
  | .fnDecl | .fnLiteral => ["return_type"]
  | .paramList => ["params"]
  | .callArgs => ["args"]
  | .arrayLiteral => ["element_type", "elements"]
  | .recordLiteral => ["type_name", "props"]
  | .typeDecl => ["is_open", "members"]
  | .typeMember => ["is_private", "is_static", "function", "attribute"]
  | .attrDecl => ["initializer"]
  | .typeName => ["args"]
  | .logicBlock => ["statements"]
  | .ifStmt => ["else_clause"]
  | .elseClause => ["block", "if_stmt"]
  | .varStmt => ["type_list", "initializer"]
  | .exprStmt => ["has_semicolon"]
  | .memberExpr => ["is_new", "accessors"]
  | _ => []

end Outline

namespace Shape

/-- Sequences of shapes match the same trees if their parts do. -/
private theorem matches_seq_congr {a a' b b' : Shape} (ha : ∀ ts, a.Matches ts ↔ a'.Matches ts)
    (hb : ∀ ts, b.Matches ts ↔ b'.Matches ts) (ts : List Tree) :
    (seq a b).Matches ts ↔ (seq a' b').Matches ts := by
  simp only [Matches, ha, hb]

/-- Repetitions of shapes match the same trees if what they repeat does. -/
private theorem matches_many_congr {a a' : Shape} (ha : ∀ ts, a.Matches ts ↔ a'.Matches ts)
    (ts : List Tree) : (many a).Matches ts ↔ (many a').Matches ts := by
  simp only [Matches, ha]

/-- One of two symbols is a symbol. -/
private theorem matches_alt_either {leaves leaves' nodes nodes' leaves'' nodes'' : TokenSet}
    (hleaves : leaves ∪ leaves' = leaves'') (hnodes : nodes ∪ nodes' = nodes'') (ts : List Tree) :
    (alt (one (.either leaves nodes)) (one (.either leaves' nodes'))).Matches ts ↔
      (one (.either leaves'' nodes'')).Matches ts := by
  have hfits : ∀ t : Tree, (Symbol.either leaves'' nodes'').fits t = true ↔
      (Symbol.either leaves nodes).fits t = true ∨
        (Symbol.either leaves' nodes').fits t = true := by
    intro t
    cases t <;> simp [← hleaves, ← hnodes]
  simp only [Matches, hfits, and_or_left, exists_or]

/-- The plan for nodes with semicolons between them has the shape for them. -/
private theorem matches_orSemicolon (name : String) (set : TokenSet) (ts : List Tree) :
    (Plan.orSemicolon name set).shape.Matches ts ↔ (orSemicolon set).Matches ts :=
  matches_alt_either (by decide) (TokenSet.ext_contains fun k => by simp) ts

end Shape

/-- The node has one child, the token of a literal. -/
def Element.IsAtom (e : Element) : Prop :=
  ∃ kind k text, e.tree = .node kind [.leaf k text] ∧ TokenSet.literals.contains k = true

namespace Outline

/-- The grammar is the same with and without the names. -/
private theorem matches_plan (k : Kind) (ts : List Tree) :
    (plan k).shape.Matches ts ↔ k.production.Matches ts := by
  -- In most nodes the parts are the symbols of the production.
  have hequal : ∀ k ∈ Kind.all, k ∉ [.program, .typeDecl, .typeMember, .block, .logicBlock] →
      (plan k).shape = k.production := by decide
  have hitems : ∀ name set ts, (Plan.many (.orSemicolon name set)).shape.Matches ts ↔
      (Shape.many (.orSemicolon set)).Matches ts := fun name set =>
    Shape.matches_many_congr (Shape.matches_orSemicolon name set)
  have hsame : ∀ (shape : Shape) ts, shape.Matches ts ↔ shape.Matches ts := fun _ _ => Iff.rfl
  by_cases hk : k ∈ [Kind.program, .typeDecl, .typeMember, .block, .logicBlock]
  · -- In these a part has a semicolon, or a part of another name, as an alternative.
    simp only [List.mem_cons, List.not_mem_nil, or_false] at hk
    obtain rfl | rfl | rfl | rfl | rfl := hk
    · exact Shape.matches_seq_congr (hsame _) (Shape.matches_seq_congr (hitems _ _) (hsame _)) ts
    · exact Shape.matches_seq_congr (hsame _) (Shape.matches_seq_congr (hsame _)
        (Shape.matches_seq_congr (hsame _) (Shape.matches_seq_congr (hsame _)
          (Shape.matches_seq_congr (hitems _ _) (hsame _))))) ts
    · have hmember : ∀ ts, (Shape.alt (.node .fnDecl) (.node .attrDecl)).Matches ts ↔
          (Shape.nodes (.ofList [.fnDecl, .attrDecl])).Matches ts :=
        Shape.matches_alt_either rfl rfl
      exact Shape.matches_seq_congr (hsame _) (Shape.matches_seq_congr hmember (hsame _)) ts
    · exact Shape.matches_seq_congr (hsame _) (Shape.matches_seq_congr (hitems _ _)
        (Shape.matches_seq_congr (hsame _) (Shape.matches_seq_congr (hitems _ _) (hsame _)))) ts
    · exact Shape.matches_seq_congr (hsame _) (Shape.matches_seq_congr (hitems _ _) (hsame _)) ts
  · rw [hequal k (Kind.mem_all k) hk]

/-! ## What selectors look for -/

/-- The elements that were found.  The answer yes or no is no element. -/
def Part.elements : Part → List Element
  | token found | child found => found.toList
  | children found => found
  | mark _ => []

/-- Was anything found? -/
def Part.isPresent : Part → Bool
  | mark found => found
  | part => !part.elements.isEmpty

namespace Selector

/-- Does the selector answer yes or no? -/
def isMark : Selector → Bool
  | mark _ => true
  | _ => false

/-- What a selector looks for. -/
def symbol : Selector → Symbol
  | token set => .either set .empty
  | child set _ => .either .empty set
  | children set => .either .empty set
  | mark kind => .either (.single kind) .empty
  | leading => .either .literals .empty

/-- What a selector takes of that: one of them, or all. -/
def select {α : Type} : Selector → List α → List α
  | token _, xs | mark _, xs | leading, xs => xs[0]?.toList
  | child _ n, xs => xs[n]?.toList
  | children _, xs => xs

/-- Does the selector take what has the role? -/
def agrees (plan : Plan) (name : String) (selector : Selector) : Bool :=
  match selector with
  | token _ | mark _ | leading => plan.findsNth name selector.symbol 0
  | child _ n => plan.findsNth name selector.symbol n
  | children _ => plan.findsAll name selector.symbol

variable {α β : Type} {selector : Selector}

/-- To select from a list commutes with mapping it. -/
private theorem map_select (f : α → β) (selector : Selector) (xs : List α) :
    (selector.select xs).map f = selector.select (xs.map f) := by
  cases selector <;> simp [select, Option.toList_map]

/-- What is selected stands in the order of the list. -/
private theorem select_sublist (selector : Selector) (xs : List α) :
    (selector.select xs).Sublist xs := by
  have hone : ∀ n : Nat, (xs[n]?.toList).Sublist xs := by
    intro n
    cases h : xs[n]? with
    | none => exact List.nil_sublist xs
    | some x => exact List.singleton_sublist.mpr (List.mem_of_getElem? h)
  cases selector with
  | children set => exact .refl xs
  | child set n => exact hone n
  | _ => exact hone 0

/-- What is not significant inside a tree does not count. -/
theorem fits_significant (selector : Selector) (t : Tree) :
    selector.symbol.fits t.significant = selector.symbol.fits t := by
  cases selector <;> cases t <;> simp [symbol, Tree.significant, Tree.erase]

/-- If a selector agrees with a plan, it selects the trees that the plan has for the name. -/
private theorem filter_of_agrees {plan : Plan} {name : String} (tree : α → Tree)
    {xs : List (Option String × α)} (h : plan.Reads (xs.map fun x => (x.1, tree x.2)))
    (hagrees : selector.agrees plan name = true) : xs.filter (·.1 == some name) =
      selector.select (xs.filter (selector.symbol.fits <| tree ·.2)) := by
  cases selector with
  | children set => exact h.filter_of_findsAll hagrees
  | child set n => exact h.filter_of_findsNth hagrees
  | _ => exact h.filter_of_findsNth hagrees

/-- The children that the selector looks for. -/
def candidates (selector : Selector) (e : Element) : List Element :=
  e.children.filter (selector.symbol.fits ·.tree)

/-- A selector of leaves has the tokens of its kinds for candidates. -/
private theorem candidates_of_leaves {set : TokenSet} (h : selector.symbol = .either set .empty)
    (e : Element) : selector.candidates e = e.tokens.filter (set.contains ·.kind) := by
  rw [candidates, Element.tokens, List.filter_filter, h]
  refine List.filter_congr fun c _ => ?_
  obtain ⟨t, start⟩ := c
  cases t <;> simp [Tree.isNode, Element.kind, Tree.kind]

/-- A selector of nodes has the nodes of its kinds for candidates. -/
private theorem candidates_of_nodes {set : TokenSet} (h : selector.symbol = .either .empty set)
    (e : Element) : selector.candidates e = e.nodes.filter (set.contains ·.kind) := by
  rw [candidates, Element.nodes, List.filter_filter, h]
  refine List.filter_congr fun c _ => ?_
  obtain ⟨t, start⟩ := c
  cases t <;> simp [Tree.isNode, Element.kind, Tree.kind]

variable {e : Element}

/-- A selector that is no mark finds what it selects from its candidates. -/
private theorem elements_find (hmark : selector.isMark = false)
    (hatom : selector = leading → e.IsAtom) :
    (selector.find e).elements = selector.select (selector.candidates e) := by
  cases selector with
  | token set =>
    rw [candidates_of_leaves rfl, select, ← List.head?_eq_getElem?, List.head?_filter]
    rfl
  | child set n =>
    rw [candidates_of_nodes rfl]
    rfl
  | children set =>
    rw [candidates_of_nodes rfl]
    rfl
  | mark kind => cases hmark
  | leading =>
    obtain ⟨kind, k, text, htree, hk⟩ := hatom rfl
    -- No literal is trivia, so the leading token of an atom is its only candidate.
    have hall : ∀ k ∈ Kind.all, TokenSet.literals.contains k = true → k.isTrivia = false := by
      decide
    have htrivia : k.isTrivia = false := hall k (Kind.mem_all k) hk
    have hcandidates : leading.candidates e = [⟨.leaf k text, e.start⟩] := by
      simp [candidates, symbol, Element.children, htree, Tree.children, Element.row, hk]
    simp [hcandidates, find, Part.elements, select, htree, htrivia]

/-- A mark finds no elements. -/
private theorem elements_find_of_isMark (hmark : selector.isMark = true) :
    (selector.find e).elements = [] := by
  cases selector with
  | mark kind => rfl
  | _ => cases hmark

/-- Something is found exactly if there is a candidate that is selected. -/
theorem isPresent_find (hatom : selector = leading → e.IsAtom) :
    (selector.find e).isPresent = true ↔ ∃ c, c ∈ selector.select (selector.candidates e) := by
  -- Marks only tell whether they are there; all else is selected.
  cases hmark : selector.isMark with
  | false =>
    rw [← elements_find hmark hatom, ← List.isEmpty_eq_false_iff_exists_mem,
      ← Bool.not_eq_true']
    cases selector with
    | mark kind => cases hmark
    | _ => rfl
  | true =>
    cases selector with
    | mark kind =>
      rw [candidates_of_leaves rfl, select, ← List.head?_eq_getElem?, List.head?_filter]
      simp only [find, Part.isPresent, TokenSet.contains_single, Option.mem_toList,
        ← Option.isSome_iff_exists, List.find?_isSome, List.any_eq_true]
    | _ => cases hmark

end Selector

/-! ## The tables -/

variable {k : Kind} {part : String × Selector}

/-- Accessors take what is in the place of their part. -/
theorem agrees_of_mem_fields (h : part ∈ fields k) : part.2.agrees (plan k) part.1 = true := by
  have hall : ∀ k ∈ Kind.all, ∀ part ∈ fields k, part.2.agrees (plan k) part.1 = true := by
    decide +kernel
  exact hall k (Kind.mem_all k) part h

/-- The grammar demands the parts that are not optional. -/
private theorem demands_of_mem_fields (h : part ∈ fields k) (hneeded : part.1 ∉ optional k) :
    (plan k).demands part.1 = true := by
  have hall : ∀ k ∈ Kind.all, ∀ part ∈ fields k, part.1 ∉ optional k →
      (plan k).demands part.1 = true := by decide
  exact hall k (Kind.mem_all k) part h hneeded

/-- Where the grammar has a node, there is an accessor for it. -/
private theorem exists_field {entry : Option String × Symbol} (h : entry ∈ (plan k).symbols)
    (hnodes : entry.2.hasNodes = true) :
    ∃ part ∈ fields k, entry.1 = some part.1 ∧ part.2.isMark = false := by
  have hall : ∀ k ∈ Kind.all, ∀ entry ∈ (plan k).symbols, entry.2.hasNodes = true →
      ∃ part ∈ fields k, entry.1 = some part.1 ∧ part.2.isMark = false := by decide
  exact hall k (Kind.mem_all k) entry h hnodes

/-- Accessors of a node have different names. -/
private theorem fields_inj {part' : String × Selector} (h : part ∈ fields k) (h' : part' ∈ fields k)
    (hname : part.1 = part'.1) : part = part' := by
  have hall : ∀ k ∈ Kind.all, ((fields k).map (·.1)).Nodup := by decide
  exact List.inj_on_of_nodup_map (hall k (Kind.mem_all k)) h h' hname

/-- No accessor looks for a skipped token. -/
private theorem not_fits_of_isSkipped (h : part ∈ fields k) {j : Kind}
    (hskipped : j.isSkipped = true)
    (text : String) : part.2.symbol.fits (.leaf j text) = false := by
  have hall : ∀ k ∈ Kind.all, ∀ part ∈ fields k, ∀ j ∈ Kind.all, j.isSkipped = true →
      part.2.symbol.fits (.leaf j "") = false := by decide +kernel
  have hempty := hall k (Kind.mem_all k) part h j (Kind.mem_all j) hskipped
  cases hsymbol : part.2.symbol with
  | bare i => rfl
  | either leaves nodes =>
    rw [hsymbol] at hempty
    exact hempty

/-- Only a literal has an accessor for its first leaf. -/
private theorem kind_of_leading (h : part ∈ fields k) (hleading : part.2 = .leading) :
    k = .literal := by
  have hall : ∀ k ∈ Kind.all, ∀ part ∈ fields k, part.2 = .leading → k = .literal := by
    decide
  exact hall k (Kind.mem_all k) part h hleading

end Outline

/-! ## The children of a node -/

namespace Element

open Outline

variable {start : Nat} {ts : List Tree} {e c : Element}

/-- The elements of a row are its trees, at offsets behind its start. -/
theorem of_mem_row (h : c ∈ row start ts) : c.tree ∈ ts ∧ start ≤ c.start := by
  induction ts generalizing start with
  | nil => cases h
  | cons t ts ih =>
    rw [row] at h
    obtain rfl | h := List.mem_cons.mp h
    · exact ⟨List.mem_cons_self, Nat.le_refl start⟩
    · obtain ⟨htree, hstart⟩ := ih h
      exact ⟨List.mem_cons_of_mem t htree, by omega⟩

/-- Trees that are not empty start one after the other. -/
private theorem row_sorted (h : ∀ t ∈ ts, 0 < t.width) :
    (row start ts).Pairwise (·.start < ·.start) := by
  induction ts generalizing start with
  | nil => exact .nil
  | cons t ts ih =>
    rw [row, List.pairwise_cons]
    refine ⟨?_, ih fun u hu => h u (List.mem_cons_of_mem t hu)⟩
    intro c hc
    have hstart := (of_mem_row hc).2
    have hwidth := h t List.mem_cons_self
    simp only
    omega

/-- The children that the grammar sees. -/
def seen (e : Element) : List Element := e.children.filter (!·.tree.isDropped Kind.isSkipped)

/-- The children that the grammar sees, without what it skips, are those of the tree without it. -/
theorem map_seen (e : Element) :
    e.seen.map (·.tree.significant) = Tree.eraseAll Kind.isSkipped e.tree.children := by
  have hrow : ∀ ts start, ((row start ts).filter (!·.tree.isDropped Kind.isSkipped)).map
      (·.tree.significant) = Tree.eraseAll Kind.isSkipped ts := by
    intro ts
    induction ts with
    | nil => intro start; simp [row]
    | cons t ts ih =>
      intro start
      rw [row, Tree.eraseAll]
      cases hdropped : t.isDropped Kind.isSkipped <;>
        simpa [hdropped, Tree.significant] using ih _
  exact hrow _ _

/-- The children that the grammar sees, each with the part that the grammar has in its place. -/
structure Roles (e : Element) (zs : List (Option String × Element)) : Prop where
  children : zs.map (·.2) = e.seen
  reads : (plan e.kind).Reads (zs.map fun z => (z.1, z.2.tree.significant))

variable {zs : List (Option String × Element)} {part : String × Selector}

/-- Children that match a production have roles. -/
private theorem exists_roles
    (h : e.kind.production.Matches (Tree.eraseAll Kind.isSkipped e.tree.children)) :
    ∃ zs, e.Roles zs := by
  obtain ⟨ys, hys, hreads⟩ := Plan.reads_iff.mpr ((matches_plan e.kind _).mpr h)
  have hlength : (ys.map (·.1)).length = e.seen.length := by
    have := congrArg List.length (hys.trans e.map_seen.symm)
    simpa using this
  refine ⟨(ys.map (·.1)).zip e.seen, List.map_snd_zip hlength.ge, ?_⟩
  have hzip : ((ys.map (·.1)).zip e.seen).map (fun z => (z.1, z.2.tree.significant)) = ys := by
    calc ((ys.map (·.1)).zip e.seen).map (Prod.map id (·.tree.significant))
        = (ys.map (·.1)).zip (ys.map (·.2)) := by rw [← List.zip_map_right, e.map_seen, hys]
      _ = ys := by rw [List.zip_map', List.map_id']
  rwa [hzip]

/-- A selector takes what has the role of its part. -/
theorem Roles.filter_eq (h : e.Roles zs) (hpart : part ∈ fields e.kind) :
    (zs.filter (·.1 == some part.1)).map (·.2) = part.2.select (part.2.candidates e) := by
  have hcandidates : (zs.filter (part.2.symbol.fits ·.2.tree.significant)).map (·.2) =
      part.2.candidates e := by
    calc (zs.filter (part.2.symbol.fits ·.2.tree.significant)).map (·.2)
        = e.seen.filter (part.2.symbol.fits ·.tree.significant) := by
          rw [← h.children, List.filter_map]; rfl
      _ = e.seen.filter (part.2.symbol.fits ·.tree) := by
          simp only [Selector.fits_significant]
      _ = part.2.candidates e := by
          rw [seen, Selector.candidates, List.filter_filter]
          -- What no symbol fits is dropped by the accessor too.
          refine List.filter_congr fun c _ => ?_
          obtain ⟨t, start⟩ := c
          cases t with
          | node k cs => simp [Tree.isDropped]
          | leaf k text =>
            cases hskipped : k.isSkipped with
            | false => simp [Tree.isDropped, hskipped]
            | true => simp [not_fits_of_isSkipped hpart hskipped]
  rw [Selector.filter_of_agrees (·.tree.significant) h.reads (agrees_of_mem_fields hpart),
    Selector.map_select, hcandidates]

/-- A field finds the children that have its role. -/
private theorem Roles.mem_iff (h : e.Roles zs) (hpart : part ∈ fields e.kind) :
    (some part.1, c) ∈ zs ↔ c ∈ part.2.select (part.2.candidates e) := by
  rw [← h.filter_eq hpart]
  constructor
  · intro hc
    exact List.mem_map.mpr ⟨_, List.mem_filter.mpr ⟨hc, beq_self_eq_true _⟩, rfl⟩
  · intro hc
    obtain ⟨⟨role, d⟩, hz, rfl⟩ := List.mem_map.mp hc
    obtain ⟨hz, hrole⟩ := List.mem_filter.mp hz
    obtain rfl := beq_iff_eq.mp hrole
    exact hz

/-- No two roles are played by the same child. -/
private theorem Roles.role_unique (h : e.Roles zs)
    (hsorted : e.children.Pairwise (·.start < ·.start))
    {role role' : Option String} (hc : (role, c) ∈ zs) (hc' : (role', c) ∈ zs) : role = role' := by
  have hnodup : (zs.map (·.2)).Nodup := by
    rw [h.children]
    refine List.Nodup.filter _ (hsorted.imp ?_)
    rintro a b hlt rfl
    exact Nat.lt_irrefl _ hlt
  exact congrArg Prod.fst (List.inj_on_of_nodup_map hnodup hc hc' rfl)

/-- Each child node has the role of a part that has an accessor. -/
private theorem Roles.exists_field (h : e.Roles zs) (hc : c ∈ e.nodes) :
    ∃ part ∈ fields e.kind, part.2.isMark = false ∧ (some part.1, c) ∈ zs := by
  obtain ⟨hchild, hnode⟩ := List.mem_filter.mp hc
  obtain ⟨t, start⟩ := c
  cases t with
  -- The child was read, so some symbol of the shape fits it.
  | leaf k text => cases hnode
  | node k cs =>
    have hseen : ⟨.node k cs, start⟩ ∈ zs.map (·.2) := by
      rw [h.children]
      exact List.mem_filter.mpr ⟨hchild, rfl⟩
    obtain ⟨⟨role, -⟩, hz, rfl⟩ := List.mem_map.mp hseen
    obtain ⟨symbol, hsymbol, hfits⟩ := h.reads.exists_symbol (List.mem_map_of_mem hz)
    obtain ⟨part, hpart, hrole, hmark⟩ :=
      Outline.exists_field hsymbol (Symbol.hasNodes_of_fits hfits)
    obtain rfl : role = some part.1 := hrole
    exact ⟨part, hpart, hmark, hz⟩

/-! ## Complete outlines -/

/-- The accessors of a node return all that it consists of, as the grammar has it. -/
structure Outlined (e : Element) : Prop where
  /-- A child node is returned by exactly one accessor. -/
  unique : ∀ c ∈ e.nodes, ∃! part, part ∈ fields e.kind ∧ c ∈ (part.2.find e).elements
  /-- What an accessor returns is in source order, and nothing is in it twice. -/
  sorted : ∀ part ∈ fields e.kind, (part.2.find e).elements.Pairwise (·.start < ·.start)
  /-- Accessors of mandatory parts find something. -/
  needed : ∀ part ∈ fields e.kind, part.1 ∉ optional e.kind → (part.2.find e).isPresent = true
  /-- The grammar has a place for each child. -/
  readable : ∃ zs, e.Roles zs
  /-- An accessor finds something exactly if there is a child in the place of its part. -/
  present : ∀ zs, e.Roles zs → ∀ part ∈ fields e.kind,
    ((part.2.find e).isPresent = true ↔ ∃ c, (some part.1, c) ∈ zs)
  /-- What an accessor returns is in the place of its part. -/
  placed : ∀ zs, e.Roles zs → ∀ part ∈ fields e.kind, ∀ c ∈ (part.2.find e).elements,
    (some part.1, c) ∈ zs

/-- The outline of a node that follows the grammar is complete. -/
theorem outlined
    (hmatches : e.kind.production.Matches (Tree.eraseAll Kind.isSkipped e.tree.children))
    (hwide : ∀ t ∈ e.tree.children, 0 < t.width) (hatom : e.kind = .literal → e.IsAtom) :
    e.Outlined := by
  -- The roles tell of each child which part it is.
  obtain ⟨zs, hzs⟩ := exists_roles hmatches
  have hsorted : e.children.Pairwise (·.start < ·.start) := row_sorted hwide
  have hleading : ∀ part ∈ fields e.kind, part.2 = .leading → e.IsAtom :=
    fun part hpart hleading => hatom (kind_of_leading hpart hleading)
  -- All that is said of an accessor follows from what it selects among its candidates.
  have hfound : ∀ part ∈ fields e.kind, (part.2.find e).elements =
      if part.2.isMark then [] else part.2.select (part.2.candidates e) := by
    intro part hpart
    split
    · next hmark => exact Selector.elements_find_of_isMark hmark
    · next hmark => exact Selector.elements_find (Bool.eq_false_iff.mpr hmark) (hleading part hpart)
  -- What an accessor finds is a child in the role of its part.
  have hplaced : ∀ zs, e.Roles zs → ∀ part ∈ fields e.kind, ∀ c ∈ (part.2.find e).elements,
      (some part.1, c) ∈ zs := by
    intro zs hzs part hpart c hc
    rw [hfound part hpart] at hc
    split at hc
    · cases hc
    · exact (hzs.mem_iff hpart).mpr hc
  have hpresent : ∀ zs, e.Roles zs → ∀ part ∈ fields e.kind,
      ((part.2.find e).isPresent = true ↔ ∃ c, (some part.1, c) ∈ zs) := by
    intro zs hzs part hpart
    rw [Selector.isPresent_find (hleading part hpart)]
    exact exists_congr fun c => (hzs.mem_iff hpart).symm
  -- Each child is found by one part, in order, and the parts that are needed are there.
  refine ⟨?_, ?_, ?_, ⟨zs, hzs⟩, hpresent, hplaced⟩
  · intro c hc
    obtain ⟨part, hpart, hmark, hz⟩ := hzs.exists_field hc
    refine ⟨part, ⟨hpart, ?_⟩, ?_⟩
    · rw [hfound part hpart, hmark]
      exact (hzs.mem_iff hpart).mp hz
    · intro part' ⟨hpart', hc'⟩
      have hz' := hplaced zs hzs part' hpart' c hc'
      exact fields_inj hpart' hpart (Option.some.inj (hzs.role_unique hsorted hz' hz))
  · intro part hpart
    rw [hfound part hpart]
    split
    · exact .nil
    · exact (hsorted.filter _).sublist (Selector.select_sublist _ _)
  -- A part that is needed has a child in its role.
  · intro part hpart hneeded
    rw [hpresent zs hzs part hpart]
    obtain ⟨z, hz, hrole⟩ := hzs.reads.exists_of_demands (demands_of_mem_fields hpart hneeded)
    obtain ⟨⟨role, c⟩, hc, rfl⟩ := List.mem_map.mp hz
    obtain rfl : role = some part.1 := hrole
    exact ⟨c, hc⟩

end Element

/-! ## Widths -/

/-- May the shape have no trees at all? -/
def Shape.nullable : Shape → Bool
  | never => false
  | empty => true
  | one _ => false
  | seq first second => first.nullable && second.nullable
  | alt left right => left.nullable || right.nullable
  | many _ => true

/-- A shape that matches no trees is one that may be left out. -/
private theorem Shape.nullable_of_matches {shape : Shape} (h : shape.Matches []) :
    shape.nullable = true := by
  -- Induction on the shape.
  induction shape with
  | never => exact h.elim
  | empty => rfl
  | one symbol =>
    obtain ⟨t, ht, -⟩ := h
    cases ht
  | seq first second ihfirst ihsecond =>
    obtain ⟨us, vs, hts, hus, hvs⟩ := h
    obtain ⟨rfl, rfl⟩ := List.append_eq_nil_iff.mp hts.symm
    rw [nullable, ihfirst hus, ihsecond hvs]
    rfl
  | alt left right ihleft ihright =>
    rw [nullable, Bool.or_eq_true]
    exact h.imp ihleft ihright
  | many shape ih => rfl

/-- Every leaf has a text. -/
def Tree.Spelled (t : Tree) : Prop := ∀ label ∈ t.leaves, 0 < Text.byteLength label.2.toList

namespace Tree

/-- If a node is spelled, so are its children. -/
private theorem spelled_of_mem {k : Kind} {cs : List Tree} (h : (node k cs).Spelled) :
    ∀ c ∈ cs, c.Spelled := by
  intro c hc label hlabel
  refine h label ?_
  rw [leaves_node, leavesOf_eq_flatMap]
  exact List.mem_flatMap.mpr ⟨c, hc, hlabel⟩

/-- Only a program may be empty. -/
theorem kind_of_matches_nil {k : Kind} (h : k.production.Matches []) : k = .program := by
  have hall : ∀ k ∈ Kind.all, k.production.nullable = true → k = .program := by decide
  exact hall k (Kind.mem_all k) (Shape.nullable_of_matches h)

/-- No node has a program as a child. -/
private theorem kind_ne_program {k : Kind} {ts : List Tree} (h : k.production.Matches ts) :
    ∀ t ∈ ts, t.kind ≠ .program := by
  have hall : ∀ k ∈ Kind.all, ∀ entry ∈ (Outline.plan k).symbols,
      (Symbol.either (.single .program) (.single .program)).meets entry.2 = false := by
    decide +kernel
  obtain ⟨zs, rfl, hreads⟩ := Plan.reads_iff.mpr ((Outline.matches_plan k ts).mpr h)
  intro t ht hkind
  obtain ⟨⟨role, t⟩, hz, rfl⟩ := List.mem_map.mp ht
  obtain ⟨symbol, hsymbol, hfits⟩ := hreads.exists_symbol hz
  have hother := Symbol.not_fits_of_meets (hall k (Kind.mem_all k) _ hsymbol) hfits
  cases t <;> simp [kind] at hkind hother <;> exact hother hkind

/-- A child that is a node is still there without what the grammar skips. -/
private theorem significant_mem_eraseAll {c : Tree} {cs : List Tree} (h : c ∈ cs)
    (hnode : c.isNode = true) : c.significant ∈ eraseAll Kind.isSkipped cs := by
  cases c with
  | leaf k text => cases hnode
  | node k ds =>
    -- A node is never erased, whatever stands in front of it.
    induction cs with
    | nil => cases h
    | cons t ts ih =>
      rw [eraseAll]
      obtain rfl | h := List.mem_cons.mp h
      · exact List.mem_cons_self
      · split
        · exact ih h
        · exact List.mem_cons_of_mem _ (ih h)

/-- No production has a program among its children. -/
theorem not_program_of_mem {k : Kind} {cs : List Tree}
    (h : k.production.Matches (eraseAll Kind.isSkipped cs)) :
    ∀ c ∈ cs, c.isNode = true → c.kind ≠ .program := by
  intro c hc hnode
  have hkind := kind_ne_program h _ (significant_mem_eraseAll hc hnode)
  cases c with
  | leaf j text => cases hnode
  | node j ds => exact hkind

/-- Where all leaves have texts, a node that follows the grammar is not empty. -/
private theorem width_pos (t : Tree) (hspelled : t.Spelled) (hfollows : t.significant.Follows)
    (hroot : t.isNode = true → t.kind ≠ .program) : 0 < t.width := by
  cases t with
  | leaf k text => exact hspelled (k, text) (List.mem_singleton_self _)
  | node k cs =>
    rw [significant, erase, follows_node] at hfollows
    obtain ⟨hmatches, hchildren⟩ := hfollows
    -- An empty node cannot follow the grammar, unless it is the root.
    cases cs with
    | nil => exact absurd (kind_of_matches_nil hmatches) (hroot rfl)
    | cons c cs =>
      have hc := width_pos c (spelled_of_mem hspelled c List.mem_cons_self)
        (follows_erase_of_mem hchildren c List.mem_cons_self)
        (not_program_of_mem hmatches c List.mem_cons_self)
      rw [width, widthOf]
      omega

end Tree

/-! ## Parses -/

/-- In a parse without errors the outlines of all nodes are complete. -/
theorem parse_outlined (o : Options) (source : String) (p : Parsed) (hrecovery : o.recovery = true)
    (hparse : parse o source = .ok (.ok p)) (hclean : ∀ d ∈ p.diagnostics, d.isError = false) :
    ∀ e ∈ p.tree.preorder 0, e.Outlined := by
  -- The significant tree follows the grammar, and every leaf has a text.
  obtain ⟨-, hfollows⟩ := parse_significant_follows hrecovery hparse hclean
  have hspelled : p.tree.Spelled := by
    intro label hlabel
    rw [(parseLexed_leaves hparse).2] at hlabel
    obtain ⟨t, ht, rfl⟩ := List.mem_map.mp hlabel
    have hstop : t.start < t.start + t.width := (Token.laid_lex source).2 t ht
    exact Nat.lt_add_right_iff_pos.mp hstop
  intro e he
  obtain ⟨hnode, hfollows⟩ := Tree.preorder_follows hfollows 0 e he
  obtain ⟨-, hspelled⟩ :=
    Tree.forall_preorder (fun k cs h => Tree.spelled_of_mem h) p.tree 0 hspelled e he
  have hliteral := (parse_accounted hrecovery hparse e he).literal
  obtain ⟨t, start⟩ := e
  cases t with
  | leaf k text => cases hnode
  | node k cs =>
    rw [Tree.significant, Tree.erase, Tree.follows_node] at hfollows
    obtain ⟨hmatches, hchildren⟩ := hfollows
    -- The tree as parsed has more leaves, but none that a part is looked for among.
    refine Element.outlined hmatches ?_ ?_
    · intro c hc
      exact Tree.width_pos c (Tree.spelled_of_mem hspelled c hc)
        (Tree.follows_erase_of_mem hchildren c hc) (Tree.not_program_of_mem hmatches c hc)
    -- A literal is one token, of which its part is.
    · intro hk
      obtain rfl : k = .literal := hk
      obtain ⟨t, ht, hcs⟩ := hliteral rfl
      obtain rfl : cs = [.ofToken t] := hcs
      have hskipped : t.kind.isSkipped = false := by
        simpa using (List.mem_filter.mp ht).2
      rw [Tree.ofToken, Tree.eraseAll_leaf hskipped] at hmatches
      obtain ⟨j, text, hleaf, hj⟩ := Shape.matches_tokens.mp hmatches
      simp only [List.cons.injEq, Tree.leaf.injEq, and_true] at hleaf
      exact ⟨.literal, t.kind, t.text, rfl, hleaf.1 ▸ hj⟩

/-- The operands of a sum differ by their position only. -/
theorem parse_outlined_operands : ∃ p, parse .default "a+b;" = .ok (.ok p) ∧
    (∀ d ∈ p.diagnostics, d.isError = false) ∧ ∀ e ∈ p.tree.preorder 0, e.Outlined := by
  have hparse : parse .default "a+b;" = .ok (.ok ⟨.node .program [.node .exprStmt
      [.node .binaryExpr [.node .nameRef [.leaf .identifier "a"], .leaf .plus "+",
        .node .nameRef [.leaf .identifier "b"]], .leaf .semiColon ";"]], []⟩) := by decide +kernel
  have hclean : ∀ d ∈ ([] : List Diagnostic), d.isError = false := by simp
  exact ⟨_, hparse, hclean, parse_outlined .default _ _ rfl hparse hclean⟩

end ScriptTree
