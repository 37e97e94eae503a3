import ScriptTree.Proofs.Execution
import ScriptTree.Proofs.Terms

/-!
# Canonical trees are what the parser reads

Every canonical tree is read back from its leaves, whatever blanks and comments stand between them.
The induction is on the tree.  Its statement speaks of every rule that may read a node
(`Tree.Readable`), with what may follow the node there.

## Key results

- `Tree.readable`: each node of a canonical tree is read in each of its roles
- `parseLexed_canonical`: the parser undoes the yield of a canonical tree
-/

namespace ScriptTree

namespace Tree

open Grammar

variable {k : Kind} {cs : List Tree}

/-- A node is read in each of its roles if its children are. -/
private theorem Prepared.node_readable (h : Prepared k cs) : (node k cs).Readable := by
  intro role rest hfits
  -- One case for each role: the grammar builds a node of its kind behind a fitting rest.
  cases role with
  | typeName =>
    obtain ⟨rfl, hrest⟩ := hfits
    exact builds_typeName h hrest
  | typeArgs =>
    obtain rfl := hfits
    exact builds_typeArgs h
  | types =>
    obtain ⟨rfl, hrest⟩ := hfits
    exact builds_types h hrest
  | param =>
    obtain ⟨rfl, hrest⟩ := hfits
    exact builds_param h hrest
  | paramList =>
    obtain rfl := hfits
    exact builds_paramList h
  | importDecl =>
    obtain ⟨rfl, hterminated⟩ := hfits
    exact builds_importDecl h hterminated
  | item => exact builds_item hfits.1 h hfits.2
  | declaration => exact builds_declaration h hfits.1 hfits.2
  | member =>
    obtain ⟨rfl, hterminated⟩ := hfits
    exact builds_member h hterminated
  | statement => exact builds_statement hfits.1 h hfits.2
  | body =>
    obtain rfl := hfits
    exact builds_body h
  | elseClause =>
    obtain ⟨rfl, hrest⟩ := hfits
    exact builds_elseClause h hrest
  | elseIf =>
    obtain ⟨rfl, hbare, hrest⟩ := hfits
    exact builds_ifStmt h hbare (.inr hrest)
  | update =>
    obtain ⟨rfl, hbare, hrest⟩ := hfits
    exact builds_update h hbare hrest
  | initializer =>
    obtain ⟨rfl, hrest⟩ := hfits
    exact builds_initializer h hrest
  | expr => exact builds_expr hfits.1 h hfits.2
  | unary => exact builds_unary hfits.1 h hfits.2
  | operand => exact builds_operand hfits.1 h hfits.2
  | target => exact builds_target hfits.1 h hfits.2
  | primary => exact builds_primary hfits.1 h hfits.2.1 hfits.2.2
  | accessor => exact builds_access hfits h
  | prop =>
    obtain ⟨rfl, hrest⟩ := hfits
    exact builds_recordProp h hrest

/-- What holds of the parts of a canonical tree that follows the grammar. -/
private theorem prepared_of_readable (h : (node k cs).Follows)
    (hcanonical : (node k cs).isCanonical = true)
    (hread : ∀ t ∈ cs, t.Readable) : Prepared k cs := by
  rw [isCanonical, Bool.and_eq_true] at hcanonical
  rw [follows_node] at h
  exact ⟨h.1, hcanonical.1, h.2, hcanonical.2, hread⟩

mutual

/-- Each node of a canonical tree is read in each of its roles. -/
theorem readable (t : Tree) (h : t.Follows) (hcanonical : t.isCanonical = true) : t.Readable := by
  cases t with
  | leaf k text => simp
  | node k cs =>
    have hparts := hcanonical
    rw [isCanonical, Bool.and_eq_true] at hparts
    -- The children come first: a rule that reads the node asks others to read them.
    have hread := all_readable cs ((follows_node k cs).mp h).2 hparts.2
    exact (prepared_of_readable h hcanonical hread).node_readable

/-- All trees that are canonical and follow the grammar are read back. -/
private theorem all_readable (ts : List Tree) (h : FollowsAll ts)
    (hcanonical : allCanonical ts = true) : ∀ t ∈ ts, t.Readable := by
  cases ts with
  | nil => simp
  | cons t ts =>
    rw [followsAll_cons] at h
    rw [allCanonical, Bool.and_eq_true] at hcanonical
    rw [List.forall_mem_cons]
    exact ⟨readable t h.1 hcanonical.1, all_readable ts h.2 hcanonical.2⟩

end

end Tree

/-- The parser undoes the yield of a canonical tree: from tokens whose significant ones are the
    leaves of the tree it makes that tree again, and it has nothing to report. -/
theorem parseLexed_canonical {source : String} {tokens : List Token} {cs : List Tree}
    (hfollows : (Tree.node .program cs).Follows)
    (hcanonical : (Tree.node .program cs).isCanonical = true)
    (hspelling : Token.spelling tokens = source)
    (hlexed : ∀ t ∈ tokens, t.kind.isLexError = false)
    (hleaves : (Token.significant tokens).map Token.label = (Tree.node .program cs).leaves) :
    ∃ p, parseLexed ⟨true, none, none⟩ source tokens = .ok (.ok p) ∧ p.diagnostics = [] ∧
      p.tree.significant = .node .program cs := by
  have hparts := hcanonical
  rw [Tree.isCanonical, Bool.and_eq_true] at hparts
  have hread := Tree.all_readable cs ((Tree.follows_node _ _).mp hfollows).2 hparts.2
  have hprepared := Tree.prepared_of_readable hfollows hcanonical hread
  refine parseLexed_of_parses hspelling hlexed ?_
  -- Nothing follows the program, so its leaves are the whole input.
  have hbuilds := Grammar.builds_program hprepared []
  rw [hleaves, Tree.leaves_node]
  simpa using hbuilds

/-- A difference, with a comment before it. -/
theorem parseLexed_canonical_difference :
    ∃ p, parseLexed ⟨true, none, none⟩ "/*c*/a-b;"
        [⟨.blockComment, "/*c*/", 0, ⟨1, 1⟩⟩, ⟨.identifier, "a", 5, ⟨1, 6⟩⟩,
          ⟨.minus, "-", 6, ⟨1, 7⟩⟩, ⟨.identifier, "b", 7, ⟨1, 8⟩⟩,
          ⟨.semiColon, ";", 8, ⟨1, 9⟩⟩] = .ok (.ok p) ∧
      p.diagnostics = [] ∧
      p.tree.significant = .node .program [.node .exprStmt [.node .binaryExpr
        [.node .nameRef [.leaf .identifier "a"], .leaf .minus "-",
          .node .nameRef [.leaf .identifier "b"]], .leaf .semiColon ";"]] := by
  refine parseLexed_canonical ?_ (by decide) (by decide) (by decide) (by decide)
  -- Names, the difference, the statement and the program, each by its production.
  have hname : ∀ name, (Tree.node .nameRef [.leaf .identifier name]).Follows := by
    simp [Tree.follows_node, Kind.production, Shape.matches_token]
  have hbinary : (Kind.production .binaryExpr).Matches [.node .nameRef [.leaf .identifier "a"],
      .leaf .minus "-", .node .nameRef [.leaf .identifier "b"]] := by
    simp [Kind.production, Shape.expr]
    decide
  have hstmt : ∀ cs, (Kind.production .exprStmt).Matches
      [.node .binaryExpr cs, .leaf .semiColon ";"] := by
    simp [Kind.production, Shape.expr, Shape.terminator]
    decide
  have hprogram : ∀ cs, (Kind.production .program).Matches [.node .exprStmt cs] := by
    intro cs
    refine ⟨[], _, rfl, Shape.matches_many_nil, [.node .exprStmt cs], [], rfl, ?_, rfl⟩
    rw [Shape.orSemicolon, Shape.matches_many_one, List.forall_mem_singleton]
    change TokenSet.itemNodes.contains .exprStmt = true
    decide
  simp [Tree.follows_node, hprogram, hstmt, hbinary, hname]

end ScriptTree
