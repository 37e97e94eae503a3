import ScriptTree.Proofs.Building

/-!
# Types, declarations and statements are read back

Each production has one lemma: if the children of a node are readable, its rule reads the node from
its leaves, and leaves what may follow it.  The lookahead of a rule is settled by the first tokens
of its alternatives, and the end of a repetition by what follows.

## Key results

- `Grammar.builds_delimited`: lists between delimiters
- `Grammar.builds_statement`: braces open blocks and records, keywords all other statements
- `Grammar.builds_program`: imports, then items up to the end
-/

namespace ScriptTree

namespace Grammar

open ScriptTree.Tree
open Step (isAt isAtAny)

variable {k : Kind} {cs ts : List Tree} {rest : List (Kind × String)}

/-! ## Types -/

/-- The name of a type is read back, with its arguments if there are any. -/
theorem builds_typeName (h : Prepared .typeName cs) (hrest : kindAt rest 0 ≠ .less) :
    Rule.typeName.step.Builds [node .typeName cs] rest := by
  obtain ⟨hshape, -, hfollows, -, hread⟩ := h
  refine .rule leads_typeName (.node ?_)
  simp only [Kind.production, Shape.matches_token_cons, Shape.matches_node_cons,
    Shape.matches_opt_cons, Shape.matches_row_nil] at hshape
  obtain ⟨name, us, rfl, rfl | ⟨ds, -, rfl, rfl⟩⟩ := hshape
  · exact .cons .token (.idle (.mayNot hrest) .nil)
  · simp only [followsAll_cons] at hfollows
    have hargs := hread (node .typeArgs ds) (by simp) .typeArgs rest rfl
    have hfirst := first_of_production rfl hfollows.2.1 rest
    exact .cons .token (.cons (.may (by simpa using hfirst) hargs) .nil)

/-- Further elements, each after a separator.  An element is followed by the next separator or by
    what follows them all. -/
private theorem builds_separated (tail element : Rule) {separator : Kind}
    (hform : ∀ {x y}, tail.script.Leads false (Rule.Parses false) x y ↔
      Step.may separator (.row [.token separator, element.step, tail.step]) x y)
    (helement : ∀ ds rest', node k ds ∈ ts →
      kindAt rest' 0 = separator ∨ kindAt rest' 0 = kindAt rest 0 →
        element.step.Builds [node k ds] rest')
    (hrest : kindAt rest 0 ≠ separator)
    (h : (Shape.many (.row [.token separator, .node k])).Matches ts) :
    tail.step.Builds ts rest ∧ (kindAt (leavesOf ts ++ rest) 0 = separator ∨
      kindAt (leavesOf ts ++ rest) 0 = kindAt rest 0) := by
  obtain ⟨tss, rfl, hall⟩ := h
  induction tss with
  | nil => exact ⟨.rule hform (.mayNot hrest), .inr rfl⟩
  | cons us tss ih =>
    have hus := hall us List.mem_cons_self
    simp only [Shape.matches_token_cons, Shape.matches_node_cons, Shape.matches_row_nil] at hus
    obtain ⟨text, -, rfl, ds, -, rfl, rfl⟩ := hus
    -- From the end: what follows an element is known once the elements after it are read.
    obtain ⟨htail, hfirst⟩ := ih
      (fun vs hvs => hall vs (List.mem_cons_of_mem _ hvs))
      (fun ds rest' hmem => helement ds rest' (List.mem_append_right _ hmem))
    refine ⟨.rule hform (.may (by simp) ?_), .inl (by simp)⟩
    exact .cons .token (.cons (helement ds _ (by simp) hfirst) (.last htail))

/-- A list of types is read back before what may follow it. -/
theorem builds_types (h : Prepared .typeList cs)
    (hrest : TokenSet.typesFollow.contains (kindAt rest 0) = true) :
    Rule.typeList.step.Builds [node .typeList cs] rest := by
  obtain ⟨hshape, -, -, -, hread⟩ := h
  refine .rule leads_typeList (.node ?_)
  simp only [Kind.production, Shape.matches_node_cons, Shape.matches_many_cons,
    Shape.matches_row_nil] at hshape
  obtain ⟨ds, -, rfl, us, -, rfl, hus, rfl⟩ := hshape
  -- Neither the bar between two types nor what follows them opens arguments.
  have hless : ∀ rest', kindAt rest' 0 = .pipe ∨ kindAt rest' 0 = kindAt rest 0 →
      kindAt rest' 0 ≠ .less := by
    intro rest' hrest'
    obtain hk | hk := hrest'
    · rw [hk]
      decide
    · rw [hk]
      exact ne_of_contains hrest (by decide)
  -- The types after the first one are a list with bars.
  obtain ⟨htail, hfirst⟩ := builds_separated .unionTail .typeName leads_unionTail
    (fun es rest' hes hrest' => hread (node .typeName es) (by simp [hes]) .typeName rest'
      ⟨rfl, hless rest' hrest'⟩)
    (ne_of_contains hrest (by decide)) hus
  rw [List.append_nil]
  exact .cons (hread (node .typeName ds) (by simp) .typeName _ ⟨rfl, hless _ hfirst⟩) (.last htail)

/-- Type arguments are read back between their brackets. -/
theorem builds_typeArgs (h : Prepared .typeArgs cs) :
    Role.typeArgs.step.Builds [node .typeArgs cs] rest := by
  obtain ⟨hshape, -, -, -, hread⟩ := h
  refine .node ?_
  simp only [Kind.production, Shape.matches_token_cons, Shape.matches_node_cons,
    Shape.matches_many_cons, Shape.matches_row_nil] at hshape
  obtain ⟨less, -, rfl, ds, -, rfl, us, -, rfl, hus, greater, -, rfl, rfl⟩ := hshape
  -- Types stand before a comma or before the closing angle.
  have hfollow : ∀ rest', kindAt rest' 0 = .comma ∨
      kindAt rest' 0 = kindAt (leavesOf [leaf .greater greater] ++ rest) 0 →
      TokenSet.typesFollow.contains (kindAt rest' 0) = true := by
    intro rest' hrest'
    obtain hk | hk := hrest' <;> rw [hk]
    · decide
    · simp
      decide
  -- The lists after the first one are a list with commas.
  obtain ⟨htail, hfirst⟩ := builds_separated .typeArgTail .typeList leads_typeArgTail
    (fun es rest' hes hrest' => hread (node .typeList es) (by simp [hes]) .types rest'
      ⟨rfl, hfollow rest' hrest'⟩)
    (by simp) hus
  have htypes : Rule.typeList.step.Builds [node .typeList ds] _ :=
    hread (node .typeList ds) (by simp) .types _ ⟨rfl, hfollow _ hfirst⟩
  exact .cons .token (.cons (by simpa using htypes) (.append htail (.cons .token .nil)))

/-! ## Lists -/

/-- An element is followed by a comma or by the closer. -/
private theorem fits_element (form : ListForm) (hk : form.elementNodes.contains k = true)
    (hrest : kindAt rest 0 = .comma ∨ kindAt rest 0 = form.delimiter.closer) :
    form.role.Fits k cs rest := by
  -- What may follow an element depends on the list: a comma, or the closer of that list.
  cases form with
  | params =>
    refine ⟨by simpa [ListForm.elementNodes] using hk, ?_⟩
    obtain h | h := hrest <;> rw [h] <;> decide
  | callArgs =>
    refine ⟨hk, ?_⟩
    obtain h | h := hrest <;> rw [h] <;> decide
  | array =>
    refine ⟨hk, ?_⟩
    obtain h | h := hrest <;> rw [h] <;> decide
  | record =>
    refine ⟨by simpa [ListForm.elementNodes] using hk, ?_⟩
    obtain h | h := hrest <;> rw [h] <;> decide

/-- An element begins with one of the first tokens of its list. -/
private theorem first_element (form : ListForm) (hk : form.elementNodes.contains k = true)
    (h : (node k cs).Follows) (rest : List (Kind × String)) :
    form.first.contains (kindAt (leavesOf cs ++ rest) 0) = true := by
  -- Parameters and properties begin with a name, other elements are expressions.
  cases form with
  | params =>
    obtain rfl : k = .param := by simpa [ListForm.elementNodes] using hk
    rw [first_of_production rfl h rest]
    decide
  | callArgs => exact (opens_expr hk h).first rest
  | array => exact (opens_expr hk h).first rest
  | record =>
    obtain rfl : k = .recordProp := by simpa [ListForm.elementNodes] using hk
    obtain ⟨i, name, colon, j, ds, rfl, hi, -⟩ := recordProp_cases ((follows_node _ _).mp h).1
    simpa [ListForm.first] using hi

/-- Each element is read back before a comma or the closer. -/
private theorem builds_element (form : ListForm) (hk : form.elementNodes.contains k = true)
    (hread : (node k cs).Readable)
    (hrest : kindAt rest 0 = .comma ∨ kindAt rest 0 = form.delimiter.closer) :
    form.element.step.Builds [node k cs] rest := by
  have hbuilds := hread form.role rest (fits_element form hk hrest)
  cases form with
  | _ => exact hbuilds

/-- The elements are read back up to the closer, with the commas between them. -/
private theorem builds_elements (form : ListForm)
    (h : (Shape.listed (.nodes form.elementNodes)).Matches ts)
    (hfollows : FollowsAll ts) (hread : ∀ t ∈ ts, t.Readable)
    (hrest : kindAt rest 0 = form.delimiter.closer) :
    (Rule.elements form).step.Builds ts rest := by
  have hne : rest ≠ [] := by
    rintro rfl
    revert hrest
    cases form <;> decide
  have hcloser : form.first.contains form.delimiter.closer = false := by cases form <;> decide
  -- Where an element comes first, the list has neither ended nor stopped.
  have hstep : ∀ {k cs us}, form.elementNodes.contains k = true → (node k cs).Follows →
      (Step.row [form.element.step, Step.branch (isAt .comma)
        (.row [.token .comma, (Rule.elements form).step])
        (.guarded (fun i => !isAtAny form.first i) (.row []))]).Builds (node k cs :: us) rest →
      (Rule.elements form).step.Builds (node k cs :: us) rest := by
    intro k cs us hk hcs hbuilds
    have hfirst := first_element form hk hcs (leavesOf us ++ rest)
    have hno := ne_of_contains hfirst hcloser
    refine .rule leads_elements (.passed ?_ (.passed ?_ (.taken ?_ hbuilds)))
    · have hsome := isEmpty_eq_false (ne_of_contains hfirst (by cases form <;> decide))
      simpa using hsome
    · simpa [isAt] using hno
    · simpa [isAtAny] using hfirst
  revert hfollows hread
  -- A list is empty, ends with an element, or goes on behind a comma.
  refine Shape.matches_listed_induct (P := fun ts => FollowsAll ts → (∀ t ∈ ts, t.Readable) →
    (Rule.elements form).step.Builds ts rest) ?_ ?_ ?_ h
  · intro _ _
    exact .rule leads_elements (.passed (by simpa using hne) (.taken (by simpa using hrest) .nil))
  · intro k cs hk hfollows hread
    rw [followsAll_cons] at hfollows
    have hcomma : kindAt rest 0 ≠ .comma := by
      rw [hrest]
      cases form <;> decide
    -- Neither a comma nor another element follows the last element.
    refine hstep hk hfollows.1 (.cons ?_ (.idle (.passed ?_ (.guarded ?_ .nil)) .nil))
    · exact builds_element form hk (hread _ List.mem_cons_self) (.inr hrest)
    · simpa [isAt] using hcomma
    · simpa [isAtAny, hrest] using hcloser
  · intro k cs text us hk ih hfollows hread
    simp only [followsAll_cons] at hfollows
    -- Behind the comma the rest of the list is read as a list of its own.
    refine hstep hk hfollows.1 (.cons ?_ (.last (.taken (by simp) (.cons .token (.last ?_)))))
    · exact builds_element form hk (hread _ List.mem_cons_self) (.inl (by simp))
    · exact ih hfollows.2.2 fun t ht => hread t (by simp [ht])

/-- A list is read back between its delimiters. -/
theorem builds_delimited (form : ListForm) {opener closer : String}
    (h : (Shape.listed (.nodes form.elementNodes)).Matches ts)
    (hfollows : FollowsAll ts) (hread : ∀ t ∈ ts, t.Readable) :
    (delimitedStep (Rule.Parses false) form).Builds
      (leaf form.delimiter.opener opener :: (ts ++ [leaf form.delimiter.closer closer])) rest :=
  .cons .token (.append (builds_elements form h hfollows hread (by simp)) (.cons .token .nil))

/-! ## Declarations -/

/-- The children of a node for `name : types` are read back by its rule. -/
theorem builds_param (h : Prepared .param cs)
    (hrest : TokenSet.typesFollow.contains (kindAt rest 0) = true) :
    Rule.param.step.Builds [node .param cs] rest := by
  obtain ⟨name, colon, ds, rfl⟩ := param_cases h.shape
  have htypes := h.readable (node .typeList ds) (by simp) .types rest ⟨rfl, hrest⟩
  exact .rule leads_param (.node (.cons .any (.cons .token (.cons htypes .nil))))

/-- Parameters are read back between their parentheses. -/
theorem builds_paramList (h : Prepared .paramList cs) :
    Role.paramList.step.Builds [node .paramList cs] rest := by
  obtain ⟨hshape, -, hfollows, -, hread⟩ := h
  obtain ⟨opener, es, closer, rfl, hes⟩ := paramList_cases hshape
  simp only [followsAll_cons, followsAll_append] at hfollows
  exact .node (builds_delimited .params hes hfollows.2.1 fun t ht => hread t (by simp [ht]))

/-- Parameters, types and a body. -/
theorem builds_fnTail (h : (Kind.production .fnLiteral).Matches cs) (hfollows : FollowsAll cs)
    (hread : ∀ t ∈ cs, t.Readable) : Rule.fnTail.step.Builds cs rest := by
  simp only [Kind.production, Shape.ascription, Shape.matches_node_cons, Shape.matches_token_cons,
    Shape.matches_opt_cons, Shape.matches_row_cons, List.cons_append, List.nil_append,
    Shape.matches_row_nil] at h
  obtain ⟨ps, us, rfl, h⟩ := h
  have hparams := fun rest => hread (node .paramList ps) (by simp) .paramList rest rfl
  refine .rule leads_fnTail (.cons (hparams _) ?_)
  -- With a return type or without: the token behind the parameters tells.
  obtain ⟨bs, -, rfl, rfl⟩ | ⟨colon, -, rfl, ts, -, rfl, bs, -, rfl, rfl⟩ := h
  all_goals
    simp only [followsAll_cons, followsAll_nil, and_true] at hfollows
    have hbody := hread (node .logicBlock bs) (by simp) .body rest rfl
  · have hfirst := first_of_production rfl hfollows.2 rest
    exact .idle (.mayNot (by simp [hfirst])) (.cons hbody .nil)
  · have hfirst := first_of_production rfl hfollows.2.2.2 rest
    have htypes := hread (node .typeList ts) (by simp) .types
      (leavesOf [node .logicBlock bs] ++ rest)
      ⟨rfl, by simp [hfirst]; decide⟩
    exact .cons₂ (.may (by simp) (.cons .token (.cons htypes .nil))) (.cons hbody .nil)

/-- The children of a node for `function name ( params ) (: types)? { ... }` are read back by its
    rule. -/
private theorem builds_fnDecl (h : Prepared .fnDecl cs) :
    Rule.fnDecl.step.Builds [node .fnDecl cs] rest := by
  obtain ⟨hshape, -, hfollows, -, hread⟩ := h
  rw [Kind.production, Shape.matches_token_cons] at hshape
  obtain ⟨fn, us, rfl, hshape⟩ := hshape
  rw [Shape.matches_token_cons] at hshape
  obtain ⟨name, us, rfl, htail⟩ := hshape
  simp only [followsAll_cons] at hfollows
  refine .rule leads_fnDecl (.node (.cons .token (.cons .token (.last ?_))))
  exact builds_fnTail htail hfollows.2.2 fun t ht => hread t (by simp [ht])

/-- The children of a node for `name : types (= expr)?` are read back by its rule. -/
private theorem builds_attrDecl (h : Prepared .attrDecl cs) (hrest : kindAt rest 0 = .semiColon) :
    Role.declaration.step.Builds [node .attrDecl cs] rest := by
  obtain ⟨hshape, -, hfollows, -, hread⟩ := h
  simp only [Kind.production, Shape.matches_node_cons, Shape.matches_token_cons,
    Shape.matches_opt_cons, Shape.matches_row_nil] at hshape
  obtain ⟨name, -, rfl, colon, -, rfl, ts, us, rfl, h⟩ := hshape
  have htypes := fun rest hrest => hread (node .typeList ts) (by simp) .types rest ⟨rfl, hrest⟩
  -- Without a value the semicolon follows the type.
  obtain rfl | ⟨es, -, rfl, rfl⟩ := h
  · refine .passed (by simp [isAt]) (.node (.cons .token (.cons .token (.cons (htypes _ ?_) ?_))))
    · simp [hrest]
      decide
    · exact .idle (.mayNot (by simp [hrest])) .nil
  · simp only [followsAll_cons] at hfollows
    have hfirst := first_of_production rfl hfollows.2.2.2.1 rest
    have hvalue := hread (node .initializer es) (by simp) .initializer rest
      ⟨rfl, by rw [hrest]; decide⟩
    refine .passed (by simp [isAt]) (.node (.cons .token (.cons .token (.cons (htypes _ ?_) ?_))))
    · simp [hfirst]
      decide
    · exact .cons (.may (by simp [hfirst]) hvalue) .nil

/-- The declaration in a member is a function or an attribute, and the keyword tells which. -/
theorem builds_declaration (h : Prepared k cs)
    (hk : TokenSet.contains (.ofList [.fnDecl, .attrDecl]) k = true)
    (hrest : kindAt rest 0 = .semiColon) :
    Role.declaration.step.Builds [node k cs] rest := by
  obtain rfl | rfl : k = .fnDecl ∨ k = .attrDecl := by simpa using hk
  · have hfirst := first_of_production rfl h.node_follows rest
    exact .taken (by simp [hfirst]) (builds_fnDecl h)
  · exact builds_attrDecl h hrest

/-- The modifiers of a member are read back in either order. -/
private theorem builds_modifiers
    (h : (Shape.opt (.alt (.row [.token .kwPrivate, .opt (.token .kwStatic)])
      (.row [.token .kwStatic, .opt (.token .kwPrivate)]))).Matches ts)
    (hrest : kindAt rest 0 = .kwFunction ∨ kindAt rest 0 = .identifier) :
    modifiers.Builds ts rest := by
  -- Behind the modifiers comes neither of the two words.
  have hprivate : kindAt rest 0 ≠ .kwPrivate := by
    obtain h | h := hrest <;> rw [h] <;> decide
  have hstatic : kindAt rest 0 ≠ .kwStatic := by
    obtain h | h := hrest <;> rw [h] <;> decide
  -- None, one of the words, or both in either order.
  obtain rfl | h | h := h
  · exact .passed (by simpa [isAt] using hprivate) (.mayNot hstatic)
  all_goals
    simp only [Shape.matches_token_cons, Shape.matches_opt_cons, Shape.matches_row_nil] at h
    obtain ⟨text, us, rfl, rfl | ⟨text', -, rfl, rfl⟩⟩ := h
  · exact .taken (by simp) (.cons .token (.idle (.mayNot hstatic) .nil))
  · exact .taken (by simp) (.cons .token (.cons .mayToken .nil))
  · exact .passed (by simp [isAt]) (.may (by simp) (.cons .token (.idle (.mayNot hprivate) .nil)))
  · exact .passed (by simp [isAt]) (.may (by simp) (.cons .token (.cons .mayToken .nil)))

/-- A declaration begins with `function` or with its name. -/
private theorem first_declaration (hk : TokenSet.contains (.ofList [.fnDecl, .attrDecl]) k = true)
    (h : (node k cs).Follows) (rest : List (Kind × String)) :
    kindAt (leavesOf cs ++ rest) 0 = .kwFunction ∨
      kindAt (leavesOf cs ++ rest) 0 = .identifier := by
  obtain rfl | rfl : k = .fnDecl ∨ k = .attrDecl := by simpa using hk
  · exact .inl (first_of_production rfl h rest)
  · exact .inr (first_of_production rfl h rest)

/-- A member of a type is read back with its modifiers and its semicolon. -/
theorem builds_member (h : Prepared .typeMember cs)
    (hterminated : (node .typeMember cs).isTerminated = true) :
    Rule.member.step.Builds [node .typeMember cs] rest := by
  obtain ⟨⟨ms, us, rfl, hms, hus⟩, -, hfollows, -, hread⟩ := h
  simp only [Shape.terminator, Shape.matches_nodes_cons, Shape.matches_token_cons,
    Shape.matches_opt_cons, Shape.matches_row_nil] at hus
  -- A member that is terminated ends with the semicolon.
  obtain ⟨j, ds, us, rfl, hj, rfl | ⟨semi, -, rfl, rfl⟩⟩ := hus
  · rw [isTerminated_append] at hterminated
    cases hterminated
  simp only [followsAll_append, followsAll_cons] at hfollows
  have hfirst := first_declaration hj hfollows.2.1 ((.semiColon, semi) :: rest)
  have hdeclaration := hread (node j ds) (by simp) .declaration ((.semiColon, semi) :: rest)
    ⟨hj, by simp⟩
  refine .rule leads_typeMember (.node (.append (builds_modifiers hms ?_) ?_))
  · simpa using hfirst
  · exact .cons hdeclaration (.cons .mayToken .nil)

/-- A member begins with a word or with its declaration. -/
private theorem first_member (h : (node .typeMember cs).Follows) (rest : List (Kind × String)) :
    TokenSet.typeMemberFirst.contains (kindAt (leavesOf cs ++ rest) 0) = true := by
  obtain ⟨hshape, hfollows⟩ := (follows_node _ _).mp h
  simp only [Kind.production, Shape.matches_opt_cons, Shape.matches_alt_cons,
    Shape.matches_row_cons, List.cons_append, List.nil_append, Shape.matches_token_cons,
    Shape.matches_nodes_cons] at hshape
  -- Without modifiers the declaration itself comes first.
  obtain ⟨j, ds, us, rfl, hj, -⟩ | ⟨text, us, rfl, -⟩ | ⟨text, us, rfl, -⟩ := hshape
  · rw [followsAll_cons] at hfollows
    obtain hfirst | hfirst := first_declaration hj hfollows.1 (leavesOf us ++ rest)
    all_goals
      rw [leavesOf_cons, leaves_node, List.append_assoc, hfirst]
      decide
  all_goals
    simp
    decide

/-- The loop over the members of a type reads back one node after the other. -/
private theorem builds_members (h : InPlace (.single .typeMember) ts) (hfollows : FollowsAll ts)
    (hread : ∀ t ∈ ts, t.Readable) (hrest : kindAt rest 0 = .rCurly) :
    Rule.members.step.Builds ts rest := by
  induction ts with
  -- The brace that closes the type ends the members.
  | nil =>
    have hsome : rest.isEmpty = false := isEmpty_eq_false (by rw [hrest]; decide)
    exact .rule leads_members (.passed (by simpa using hsome) (.taken (by simpa using hrest) .nil))
  | cons t ts ih =>
    obtain ⟨hsettled, j, ds, rfl, hj⟩ := h t List.mem_cons_self
    obtain rfl : j = .typeMember := by simpa using hj
    rw [followsAll_cons] at hfollows
    -- A member begins with none of the tokens that end the list or stand between members.
    have hfirst := first_member hfollows.1 (leavesOf ts ++ rest)
    have hmember := hread (node .typeMember ds) List.mem_cons_self .member (leavesOf ts ++ rest)
      ⟨rfl, isTerminated_of_isSettled (by decide) hsettled⟩
    refine .rule leads_members (.passed ?_ (.passed ?_ (.passed ?_
      (.guarded ?_ (.cons hmember (.last ?_))))))
    · have hsome := isEmpty_eq_false (ne_of_contains hfirst (by decide))
      simpa using hsome
    · simpa [isAt] using ne_of_contains hfirst (j := .rCurly) (by decide)
    · simpa [isAt] using ne_of_contains hfirst (j := .semiColon) (by decide)
    · simpa [isAtAny] using hfirst
    · exact ih (fun u hu => h u (List.mem_cons_of_mem _ hu)) hfollows.2
        fun u hu => hread u (List.mem_cons_of_mem _ hu)

/-- A type without the word `open`. -/
private theorem builds_typeTail (h : (Shape.row [.token .kwType, .token .identifier, .token .lCurly,
      .many (.orSemicolon (.single .typeMember)), .token .rCurly]).Matches ts)
    (hsettled : ∀ t ∈ ts, t.isSettled = true) (hfollows : FollowsAll ts)
    (hread : ∀ t ∈ ts, t.Readable) :
    (Step.row [.token .kwType, .token .identifier, .token .lCurly, Rule.members.step,
      .token .rCurly]).Builds ts rest := by
  simp only [Shape.matches_token_cons, Shape.matches_many_cons, Shape.matches_row_nil] at h
  obtain ⟨kw, -, rfl, name, -, rfl, opener, -, rfl, ms, -, rfl, hms, closer, -, rfl, rfl⟩ := h
  simp only [followsAll_cons, followsAll_append] at hfollows
  have hplace := inPlace_of_many hms fun t ht => hsettled t (by simp [ht])
  have hmembers : Rule.members.step.Builds ms ((.rCurly, closer) :: rest) :=
    builds_members hplace hfollows.2.2.2.1 (fun t ht => hread t (by simp [ht])) (by simp)
  exact .cons .token (.cons .token (.cons .token (.append hmembers (.cons .token .nil))))

/-- The children of a node for `open? type Name { member* }` are read back by its rule. -/
private theorem builds_typeDecl (h : Prepared .typeDecl cs) :
    Rule.typeDecl.step.Builds [node .typeDecl cs] rest := by
  obtain ⟨hshape, harranged, hfollows, -, hread⟩ := h
  rw [Kind.arranges, List.all_eq_true] at harranged
  rw [Kind.production, Shape.matches_opt_cons] at hshape
  refine .rule leads_typeDecl (.node ?_)
  -- The keyword may be preceded by `open`.
  obtain htail | hopen := hshape
  · have hfirst : kindAt (leavesOf cs ++ rest) 0 ≠ .kwOpen := by
      rw [Shape.matches_token_cons] at htail
      obtain ⟨kw, us, rfl, -⟩ := htail
      simp
    exact .idle (.mayNot hfirst) (builds_typeTail htail harranged hfollows hread)
  · rw [Shape.matches_token_cons] at hopen
    obtain ⟨kw, us, rfl, htail⟩ := hopen
    rw [followsAll_cons] at hfollows
    exact .cons .mayToken (builds_typeTail htail
      (fun t ht => harranged t (List.mem_cons_of_mem _ ht)) hfollows.2
      fun t ht => hread t (List.mem_cons_of_mem _ ht))

/-- A type begins with `open` or with `type`. -/
private theorem first_typeDecl (h : (node .typeDecl cs).Follows) (rest : List (Kind × String)) :
    TokenSet.contains (.ofList [.kwOpen, .kwType]) (kindAt (leavesOf cs ++ rest) 0) = true := by
  have hshape := ((follows_node _ _).mp h).1
  simp only [Kind.production, Shape.matches_opt_cons, Shape.matches_token_cons] at hshape
  obtain ⟨text, us, rfl, -⟩ | ⟨text, us, rfl, -⟩ := hshape
  all_goals
    simp

/-- The children of a node for `import "path" ;?` are read back by its rule. -/
theorem builds_importDecl (h : Prepared .importDecl cs)
    (hterminated : (node .importDecl cs).isTerminated = true) :
    Rule.importDecl.step.Builds [node .importDecl cs] rest := by
  have hshape := h.shape
  simp only [Kind.production, Shape.terminator, Shape.matches_token_cons, Shape.matches_tokens_cons,
    Shape.matches_opt_cons, Shape.matches_row_nil] at hshape
  obtain ⟨kw, -, rfl, j, text, -, rfl, hj, rfl | ⟨semi, -, rfl, rfl⟩⟩ := hshape
  · have hno := ne_of_contains hj (j := .semiColon) (by decide)
    simp [isTerminated, children, isDropped, hno] at hterminated
  · exact .rule leads_importDecl (.node (.cons .token (.cons (.tokens hj) (.cons .mayToken .nil))))

/-! ## Statements -/

/-- The children of a node for `= expr` are read back by its rule. -/
theorem builds_initializer (h : Prepared .initializer cs)
    (hrest : TokenSet.exprFollow.contains (kindAt rest 0) = true) :
    Rule.initializer.step.Builds [node .initializer cs] rest := by
  obtain ⟨hshape, -, -, -, hread⟩ := h
  simp only [Kind.production, Shape.expr, Shape.matches_token_cons, Shape.matches_nodes_cons,
    Shape.matches_row_nil] at hshape
  obtain ⟨eq, -, rfl, j, ds, -, rfl, hj, rfl⟩ := hshape
  have hvalue := hread (node j ds) (by simp) .expr rest ⟨hj, hrest⟩
  exact .rule leads_initializer (.node (.cons .token (.cons hvalue .nil)))

/-- The statements of a body are read back up to the brace that closes it. -/
theorem parses_statements (h : InPlace .stmtNodes ts) (hfollows : FollowsAll ts)
    (hread : ∀ t ∈ ts, t.Readable) (hrest : kindAt rest 0 = .rCurly) (seen : Bool)
    (frame : List Tree) :
    Rule.Parses false (.statements seen) ⟨leavesOf ts ++ rest, frame⟩ (seen || !ts.isEmpty)
      ⟨rest, frame ++ ts⟩ := by
  induction ts generalizing seen frame with
  | nil =>
    -- The brace that closes the block ends the statements.
    refine Rule.parses_iff.mpr (reads_statements.mpr ?_)
    simp [hrest]
  | cons t ts ih =>
    obtain ⟨hsettled, j, ds, rfl, hj⟩ := h t List.mem_cons_self
    rw [followsAll_cons] at hfollows
    have hfirst := first_statement hj hfollows.1 (leavesOf ts ++ rest)
    have hstatement : Rule.statement.step.Builds [node j ds] (leavesOf ts ++ rest) :=
      hread (node j ds) List.mem_cons_self .statement _ ⟨hj, hsettled⟩
    have hstatements := ih (fun u hu => h u (List.mem_cons_of_mem _ hu)) hfollows.2
      (fun u hu => hread u (List.mem_cons_of_mem _ hu)) true (frame ++ [node j ds])
    -- The statement is neither the end of the block nor a semicolon.
    have hstop : ((leavesOf ds ++ (leavesOf ts ++ rest)).isEmpty ||
        isAt .rCurly (leavesOf ds ++ (leavesOf ts ++ rest))) = false := by
      rw [isEmpty_eq_false (ne_of_contains hfirst (by decide)), Bool.false_or]
      simpa [isAt] using ne_of_contains hfirst (j := .rCurly) (by decide)
    have hsemicolon : isAt .semiColon (leavesOf ds ++ (leavesOf ts ++ rest)) = false := by
      simpa [isAt] using ne_of_contains hfirst (j := .semiColon) (by decide)
    -- The step of the rule: a statement, and then the rest of them.
    refine Rule.parses_iff.mpr (reads_statements.mpr ?_)
    rw [leavesOf_cons, leaves_node, List.append_assoc]
    simp only [hstop, hsemicolon, Bool.false_eq_true, if_false]
    refine ⟨hfirst, ⟨leavesOf ts ++ rest, frame ++ [node j ds]⟩, ?_, ?_⟩
    · simpa using hstatement frame
    · simpa using hstatements

/-- The children of a node for `{ statement* }` are read back by its rule. -/
theorem builds_body (h : Prepared .logicBlock cs) :
    Rule.body.step.Builds [node .logicBlock cs] rest := by
  obtain ⟨hshape, harranged, hfollows, -, hread⟩ := h
  obtain ⟨opener, ss, closer, hss, rfl⟩ := body_cases hshape harranged
  simp only [followsAll_cons, followsAll_append] at hfollows
  have hstatements : (Rule.statements false).step.Builds ss ((.rCurly, closer) :: rest) :=
    fun frame => ⟨_, parses_statements hss hfollows.2.1 (fun t ht => hread t (by simp [ht]))
      (by simp) false frame⟩
  exact .rule leads_body (.node (.cons .token (.append hstatements (.cons .token .nil))))

/-- The children of a node for `{ statement+ } ;?` are read back by its rule. -/
private theorem builds_block (h : Prepared .block cs)
    (hterminated : (node .block cs).isTerminated = true) :
    Rule.block.step.Builds [node .block cs] rest := by
  obtain ⟨hshape, harranged, hfollows, -, hread⟩ := h
  obtain ⟨opener, ss, closer, semi, hne, hss, rfl⟩ := block_cases hshape harranged hterminated
  simp only [followsAll_cons, followsAll_append] at hfollows
  -- Some statement is read, so the rule answers that there was one.
  have hstatements : Step.Builds (fun x y => Rule.Parses false (.statements false) x true y) ss
      ((.rCurly, closer) :: (.semiColon, semi) :: rest) := by
    intro frame
    have hseen : ss.isEmpty = false := by simpa using hne
    have hlast : kindAt ((.rCurly, closer) :: (.semiColon, semi) :: rest) 0 = .rCurly := by simp
    have hparses := parses_statements hss hfollows.2.1 (fun t ht => hread t (by simp [ht])) hlast
      false frame
    simpa [hseen] using hparses
  exact .rule leads_block (.node (.cons .token (.append hstatements (.cons .token
    (.cons .mayToken .nil)))))

/-- A statement that is no block opens a brace with a property, and a block does not. -/
private theorem startsRecord_block (h : Prepared .block cs)
    (hterminated : (node .block cs).isTerminated = true) :
    startsRecord (leavesOf cs ++ rest) = false := by
  obtain ⟨hshape, harranged, hfollows, hcanonical, hread⟩ := h
  obtain ⟨opener, ss, closer, semi, hne, hss, rfl⟩ := block_cases hshape harranged hterminated
  obtain ⟨s, ss, rfl⟩ := List.exists_cons_of_ne_nil hne
  obtain ⟨hsettled, j, ds, rfl, hj⟩ := hss s List.mem_cons_self
  simp only [followsAll_cons, List.cons_append] at hfollows
  have hinner : j.arranges ds = true := by
    simp only [List.cons_append, allCanonical, isCanonical, Bool.and_eq_true] at hcanonical
    exact hcanonical.2.1.1
  -- A colon as the second token is one of a static access, which no record begins with.
  by_cases hcolon : kindAt (leavesOf ds ++
      (leavesOf (ss ++ [leaf .rCurly closer, leaf .semiColon semi]) ++ rest)) 1 = .colon
  · have hdouble := second_statement hj hfollows.2.1 hinner hsettled hcolon
    simp at hdouble
    simp [startsRecord, hdouble]
  · simp at hcolon
    simp [startsRecord, hcolon]

/-- The children of a node for `if ( expr ) { ... } (else (if ... | { ... }))? ;?` are read back by
    its rule. -/
theorem builds_ifStmt {terminated : Bool} (h : Prepared .ifStmt cs)
    (hterminated : (node .ifStmt cs).isTerminated = terminated)
    (hrest : terminated = true ∨ kindAt rest 0 ≠ .kwElse) :
    (Rule.ifStmt terminated).step.Builds [node .ifStmt cs] rest := by
  obtain ⟨hshape, -, hfollows, -, hread⟩ := h
  simp only [Kind.production, Shape.expr, Shape.terminator, Shape.matches_token_cons,
    Shape.matches_nodes_cons, Shape.matches_node_cons] at hshape
  obtain ⟨kw, -, rfl, opener, -, rfl, j, ds, -, rfl, hj, closer, -, rfl, bs, us, rfl, hus⟩ := hshape
  -- The parts of the statement are read by the rules of their own.
  have hcondition := fun rest' hrest' => hread (node j ds) (by simp) .expr rest' ⟨hj, hrest'⟩
  have hbody := fun rest' => hread (node .logicBlock bs) (by simp) .body rest' rfl
  refine .rule leads_ifStmt (.node (.cons .token (.cons .token
    (.cons (hcondition _ (by simp; decide)) (.cons .token (.cons (hbody _) ?_))))))
  simp only [Shape.matches_opt_cons, Shape.matches_node_cons, Shape.matches_token_cons,
    Shape.matches_row_nil] at hus
  have helse := fun es rest' (hmem : node .elseClause es ∈ us) hrest' =>
    hread (node .elseClause es) (by simp [hmem]) .elseClause rest' ⟨rfl, hrest'⟩
  -- With and without an else branch, and with and without a semicolon at the end.
  obtain (rfl | ⟨semi, -, rfl, rfl⟩) | ⟨es, us, rfl, rfl | ⟨semi, -, rfl, rfl⟩⟩ := hus
  -- Neither branch nor semicolon.
  · obtain rfl : terminated = false := by
      simpa [isTerminated, children, isDropped] using hterminated.symm
    have hno : kindAt rest 0 ≠ .kwElse := by simpa using hrest
    exact .idle (.mayNot hno) (.idle .nil .nil)
  · obtain rfl : terminated = true := by
      simpa [isTerminated, children, isDropped] using hterminated.symm
    exact .idle (.mayNot (by simp)) (.cons .mayToken .nil)
  · obtain rfl : terminated = false := by
      simpa [isTerminated, children, isDropped] using hterminated.symm
    have hno : kindAt rest 0 ≠ .kwElse := by simpa using hrest
    simp only [followsAll_cons] at hfollows
    have hfirst := first_of_production rfl hfollows.2.2.2.2.2.1 rest
    exact .cons (.may (by simp [hfirst]) (helse es rest (by simp) hno)) (.idle .nil .nil)
  · obtain rfl : terminated = true := by
      simpa [isTerminated, children, isDropped] using hterminated.symm
    simp only [followsAll_cons] at hfollows
    have hfirst := first_of_production rfl hfollows.2.2.2.2.2.1 ((.semiColon, semi) :: rest)
    exact .cons (.may (by simp [hfirst]) (helse es _ (by simp) (by simp))) (.cons .mayToken .nil)

/-- An `else` clause is read back, with another `if` statement or a body. -/
theorem builds_elseClause (h : Prepared .elseClause cs) (hrest : kindAt rest 0 ≠ .kwElse) :
    Role.elseClause.step.Builds [node .elseClause cs] rest := by
  obtain ⟨hshape, -, hfollows, -, hread⟩ := h
  simp only [Kind.production, Shape.matches_token_cons, Shape.matches_alt_cons,
    Shape.matches_bare_cons, Shape.matches_node_cons, Shape.matches_row_nil] at hshape
  obtain ⟨text, -, rfl, ⟨es, -, rfl, hbare, rfl⟩ | ⟨bs, -, rfl, rfl⟩⟩ := hshape
  all_goals
    simp only [followsAll_cons] at hfollows
    have hfirst := first_of_production rfl hfollows.2.1 rest
  · have hif := hread (node .ifStmt es) (by simp) .elseIf rest ⟨rfl, hbare, hrest⟩
    exact .node (.cons .token (.cons (.taken (by simp [hfirst]) hif) .nil))
  · have hbody := hread (node .logicBlock bs) (by simp) .body rest rfl
    exact .node (.cons .token (.cons (.passed (by simp [isAt, hfirst]) hbody) .nil))

/-- The parts of a loop or of another statement whose head ends with `)`. -/
private theorem builds_while (h : Prepared .whileStmt cs)
    (hterminated : (node .whileStmt cs).isTerminated = true) :
    (whileStep (Rule.Parses false)).Builds [node .whileStmt cs] rest := by
  obtain ⟨hshape, -, -, -, hread⟩ := h
  simp only [Kind.production, Shape.expr, Shape.terminator, Shape.matches_token_cons,
    Shape.matches_nodes_cons, Shape.matches_node_cons, Shape.matches_opt_cons,
    Shape.matches_row_nil] at hshape
  obtain ⟨kw, -, rfl, opener, -, rfl, j, ds, -, rfl, hj, closer, -, rfl, bs, -, rfl,
    rfl | ⟨semi, -, rfl, rfl⟩⟩ := hshape
  -- A statement with a body in braces is never terminated by a missing semicolon.
  · simp [isTerminated, children, isDropped] at hterminated
  have hcondition := fun rest' hrest' => hread (node j ds) (by simp) .expr rest' ⟨hj, hrest'⟩
  have hbody := fun rest' => hread (node .logicBlock bs) (by simp) .body rest' rfl
  exact .node (.cons .token (.cons .token (.cons (hcondition _ (by simp; decide)) (.cons .token
    (.cons (hbody _) (.cons .mayToken .nil))))))

/-- The last part of the head of a loop is read back without a semicolon. -/
theorem builds_update (h : Prepared .exprStmt cs)
    (hbare : (node .exprStmt cs).isTerminated = false)
    (hrest : TokenSet.exprFollow.contains (kindAt rest 0) = true) :
    Role.update.step.Builds [node .exprStmt cs] rest := by
  obtain ⟨hshape, -, hfollows, -, hread⟩ := h
  simp only [Kind.production, Shape.expr, Shape.terminator, Shape.matches_token_cons,
    Shape.matches_nodes_cons, Shape.matches_opt_cons, Shape.matches_row_nil] at hshape
  obtain ⟨j, ds, -, rfl, hj, rfl | ⟨semi, -, rfl, rfl⟩⟩ := hshape
  · simp only [followsAll_cons] at hfollows
    have hfirst := (opens_expr hj hfollows.1).first rest
    have hexpr := hread (node j ds) (by simp) .expr rest ⟨hj, hrest⟩
    exact .guarded (by simpa [isAtAny] using hfirst) (.node hexpr)
  · simp [isTerminated, children, isDropped] at hbare

/-- A `for` statement is read back, with either head. -/
private theorem builds_for (h : Prepared .forStmt cs)
    (hterminated : (node .forStmt cs).isTerminated = true) :
    (forStep (Rule.Parses false)).Builds [node .forStmt cs] rest := by
  obtain ⟨hshape, -, -, -, hread⟩ := h
  simp only [Kind.production, Shape.expr, Shape.terminator, Shape.matches_token_cons,
    Shape.matches_nodes_cons, Shape.matches_node_cons, Shape.matches_bare_cons,
    Shape.matches_opt_cons, Shape.matches_row_nil] at hshape
  obtain ⟨kw, -, rfl, opener, -, rfl, name, -, rfl, eq, -, rfl, i, as, -, rfl, hi, semi, -, rfl,
    j, ds, -, rfl, hj, semi', -, rfl, es, -, rfl, hbare, closer, -, rfl, bs, -, rfl,
    rfl | ⟨semi'', -, rfl, rfl⟩⟩ := hshape
  · simp [isTerminated, children, isDropped] at hterminated
  -- Each part of the header and the body is read as its role demands.
  have hstart := fun rest' hrest' => hread (node i as) (by simp) .expr rest' ⟨hi, hrest'⟩
  have hcondition := fun rest' hrest' => hread (node j ds) (by simp) .expr rest' ⟨hj, hrest'⟩
  have hupdate := fun rest' hrest' =>
    hread (node .exprStmt es) (by simp) .update rest' ⟨rfl, hbare, hrest'⟩
  have hbody := fun rest' => hread (node .logicBlock bs) (by simp) .body rest' rfl
  exact .node (.cons .token (.cons .token (.cons .token (.cons .token
    (.cons (hstart _ (by simp; decide)) (.cons .token (.cons (hcondition _ (by simp; decide))
      (.cons .token (.cons (hupdate _ (by simp; decide)) (.cons .token (.cons (hbody _)
        (.cons .mayToken .nil))))))))))))

/-- The last child of a node is the last one of those after the first. -/
private theorem isTerminated_tail {t : Tree} (h : (node k (t :: ts)).isTerminated = true)
    (ht : t.isDropped (· == .semiColon) = false) : (node k ts).isTerminated = true := by
  cases ts with
  | nil => simp [isTerminated, children, ht] at h
  | cons u us => simpa [isTerminated, children] using h

/-- The value of a variable and the semicolon. -/
private theorem builds_value {kw : Kind}
    (h : (Shape.row [.opt (.node .initializer), .terminator]).Matches ts)
    (hterminated : (node kw ts).isTerminated = true) (hfollows : FollowsAll ts)
    (hread : ∀ t ∈ ts, t.Readable) :
    (Step.row [.may .eq (.row [Rule.initializer.step]), .mayToken .semiColon]).Builds ts rest ∧
      (kindAt (leavesOf ts ++ rest) 0 = .eq ∨ kindAt (leavesOf ts ++ rest) 0 = .semiColon) := by
  simp only [Shape.terminator, Shape.matches_node_cons, Shape.matches_token_cons,
    Shape.matches_opt_cons, Shape.matches_row_nil] at h
  -- A value or none, and a semicolon or none; the two without it are not terminated.
  obtain (rfl | ⟨semi, -, rfl, rfl⟩) | ⟨es, us, rfl, rfl | ⟨semi, -, rfl, rfl⟩⟩ := h
  · simp [isTerminated, children] at hterminated
  · exact ⟨.idle (.mayNot (by simp)) (.cons .mayToken .nil), .inr (by simp)⟩
  · simp [isTerminated, children, isDropped] at hterminated
  · simp only [followsAll_cons] at hfollows
    have hfirst := first_of_production rfl hfollows.1 ((.semiColon, semi) :: rest)
    have hvalue := hread (node .initializer es) (by simp) .initializer ((.semiColon, semi) :: rest)
      ⟨rfl, by simp; decide⟩
    refine ⟨.cons (.may (by simp [hfirst]) (.last hvalue)) (.cons .mayToken .nil), .inl ?_⟩
    simpa using hfirst

/-- A declaration of a variable is read back. -/
private theorem builds_var (h : Prepared .varStmt cs)
    (hterminated : (node .varStmt cs).isTerminated = true) :
    (varStep (Rule.Parses false)).Builds [node .varStmt cs] rest := by
  obtain ⟨hshape, -, hfollows, -, hread⟩ := h
  rw [Kind.production, Shape.matches_token_cons] at hshape
  obtain ⟨kw, us, rfl, hshape⟩ := hshape
  rw [Shape.matches_token_cons] at hshape
  obtain ⟨name, us, rfl, hshape⟩ := hshape
  simp only [followsAll_cons] at hfollows
  have hterminated := isTerminated_tail (isTerminated_tail hterminated (by rfl)) (by rfl)
  rw [Shape.matches_opt_cons, Shape.ascription, Shape.matches_row_cons] at hshape
  refine .node (.cons .token (.cons .token ?_))
  -- With a type or without: the colon tells.
  obtain htail | htail := hshape
  -- Without a type the value comes next, or the semicolon.
  · obtain ⟨hvalue, hfirst⟩ := @builds_value _ rest _ htail hterminated hfollows.2.2
      fun t ht => hread t (by simp [ht])
    refine .idle (.mayNot ?_) hvalue
    obtain hfirst | hfirst := hfirst <;> rw [hfirst] <;> decide
  -- A type behind a colon and then the value.
  · simp only [List.cons_append, List.nil_append, Shape.matches_token_cons,
      Shape.matches_node_cons] at htail
    obtain ⟨colon, -, rfl, ds, us, rfl, htail⟩ := htail
    simp only [followsAll_cons] at hfollows
    have hterminated := isTerminated_tail (isTerminated_tail hterminated (by rfl)) (by rfl)
    obtain ⟨hvalue, hfirst⟩ := @builds_value _ rest _ htail hterminated hfollows.2.2.2.2
      fun t ht => hread t (by simp [ht])
    have htypes := hread (node .typeList ds) (by simp) .types (leavesOf us ++ rest) ⟨rfl, by
      obtain hfirst | hfirst := hfirst <;> rw [hfirst] <;> decide⟩
    exact .cons₂ (.may (by simp) (.cons .token (.cons htypes .nil))) hvalue

/-- A `return` statement is read back. -/
private theorem builds_return (h : Prepared .returnStmt cs)
    (hterminated : (node .returnStmt cs).isTerminated = true) :
    (returnStep (Rule.Parses false)).Builds [node .returnStmt cs] rest := by
  obtain ⟨hshape, -, -, -, hread⟩ := h
  simp only [Kind.production, Shape.expr, Shape.terminator, Shape.matches_token_cons,
    Shape.matches_nodes_cons, Shape.matches_opt_cons, Shape.matches_row_nil] at hshape
  obtain ⟨kw, -, rfl, j, ds, -, rfl, hj, rfl | ⟨semi, -, rfl, rfl⟩⟩ := hshape
  · simp [isTerminated, children, isDropped] at hterminated
  have hvalue := hread (node j ds) (by simp) .expr ((.semiColon, semi) :: rest)
    ⟨hj, by simp; decide⟩
  exact .node (.cons .token (.cons hvalue (.cons .mayToken .nil)))

/-- An expression as a statement, and how it begins. -/
private theorem builds_exprStmt (h : Prepared .exprStmt cs)
    (hterminated : (node .exprStmt cs).isTerminated = true) :
    (exprStep (Rule.Parses false)).Builds [node .exprStmt cs] rest ∧
      TokenSet.exprFirst.contains (kindAt (leavesOf cs ++ rest) 0) = true := by
  obtain ⟨hshape, -, hfollows, -, hread⟩ := h
  simp only [Kind.production, Shape.expr, Shape.terminator, Shape.matches_token_cons,
    Shape.matches_nodes_cons, Shape.matches_opt_cons, Shape.matches_row_nil] at hshape
  obtain ⟨j, ds, -, rfl, hj, rfl | ⟨semi, -, rfl, rfl⟩⟩ := hshape
  · simp [isTerminated, children, isDropped] at hterminated
  simp only [followsAll_cons] at hfollows
  have hvalue := hread (node j ds) (by simp) .expr ((.semiColon, semi) :: rest)
    ⟨hj, by simp; decide⟩
  have hfirst := (opens_expr hj hfollows.1).first ((.semiColon, semi) :: rest)
  exact ⟨.node (.cons hvalue (.cons .mayToken .nil)), by simpa using hfirst⟩

/-- Where a brace opens an expression that is a statement, a property follows. -/
private theorem startsRecord_exprStmt (h : Prepared .exprStmt cs)
    (hsettled : (node .exprStmt cs).isSettled = true)
    (hcurly : kindAt (leavesOf cs ++ rest) 0 = .lCurly) :
    startsRecord (leavesOf cs ++ rest) = true := by
  obtain ⟨hshape, -, hfollows, -, -⟩ := h
  simp only [Kind.production, Shape.expr, Shape.matches_nodes_cons] at hshape
  obtain ⟨j, ds, us, rfl, hj, -⟩ := hshape
  rw [followsAll_cons] at hfollows
  rw [leavesOf_cons, List.append_assoc] at hcurly ⊢
  -- The brace belongs to a record at the left edge, and an empty one would not be settled.
  refine (opens_expr hj hfollows.1).startsRecord hcurly ?_
  have hopens : (node .exprStmt (node j ds :: us)).opensEmptyRecord = false := by
    simpa [isSettled] using (Bool.and_eq_true_iff.mp hsettled).2
  rw [opensEmptyRecord, Bool.or_eq_false_iff] at hopens
  simpa only [headOpensEmptyRecord] using hopens.2

/-- Each statement is read back: braces open blocks and records, keywords all others. -/
theorem builds_statement (hk : TokenSet.stmtNodes.contains k = true) (h : Prepared k cs)
    (hsettled : (node k cs).isSettled = true) :
    Rule.statement.step.Builds [node k cs] rest := by
  have hterminated := isTerminated_of_isSettled
    (by rw [TokenSet.ownerNodes, TokenSet.contains_union, hk, Bool.true_or]) hsettled
  refine .rule leads_statement ?_
  simp only [TokenSet.stmtNodes, TokenSet.contains_ofList, List.contains_iff_mem, List.mem_cons,
    List.not_mem_nil, or_false] at hk
  -- A block and a record both open with a brace; other statements have a keyword of their own.
  obtain rfl | rfl | rfl | rfl | rfl | rfl | rfl := hk
  -- An expression statement is what is left when no keyword is there.
  case inr.inr.inr.inr.inr.inl =>
    obtain ⟨hbuilds, hfirst⟩ := @builds_exprStmt _ rest h hterminated
    -- It may open with the brace of a record, which the lookahead tells from a block.
    by_cases hcurly : kindAt (leavesOf cs ++ rest) 0 = .lCurly
    · refine .taken (by simpa using hcurly) (.taken ?_ hbuilds)
      simpa using startsRecord_exprStmt h hsettled hcurly
    · have hne : ∀ j, TokenSet.exprFirst.contains j = false →
          isAt j (leavesOf [node .exprStmt cs] ++ rest) = false := fun j hj => by
        simpa [isAt] using ne_of_contains hfirst hj
      refine .passed (by simpa [isAt] using hcurly) (.passed (hne _ (by decide))
        (.passed (hne _ (by decide)) (.passed (hne _ (by decide)) (.passed (hne _ (by decide))
          (.passed (hne _ (by decide)) (.guarded ?_ hbuilds))))))
      simpa [isAtAny] using hfirst
  all_goals have hfirst := first_of_production rfl h.node_follows rest
  -- A block is told from a record by the same lookahead.
  · have hrecord : startsRecord (leavesOf cs ++ rest) = false := startsRecord_block h hterminated
    exact .taken (by simp [hfirst]) (.passed (by simpa using hrecord) (builds_block h hterminated))
  · exact .passed (by simp [isAt, hfirst]) (.taken (by simp [hfirst])
      (builds_ifStmt h hterminated (.inl rfl)))
  · exact .passed (by simp [isAt, hfirst]) (.passed (by simp [isAt, hfirst])
      (.taken (by simp [hfirst]) (builds_while h hterminated)))
  · exact .passed (by simp [isAt, hfirst]) (.passed (by simp [isAt, hfirst]) (.passed
      (by simp [isAt, hfirst]) (.taken (by simp [hfirst]) (builds_for h hterminated))))
  · exact .passed (by simp [isAt, hfirst]) (.passed (by simp [isAt, hfirst]) (.passed
      (by simp [isAt, hfirst]) (.passed (by simp [isAt, hfirst]) (.taken (by simp [hfirst])
        (builds_var h hterminated)))))
  · exact .passed (by simp [isAt, hfirst]) (.passed (by simp [isAt, hfirst]) (.passed
      (by simp [isAt, hfirst]) (.passed (by simp [isAt, hfirst]) (.passed (by simp [isAt, hfirst])
        (.taken (by simp [hfirst]) (builds_return h hterminated))))))

/-! ## Items -/

/-- Each item is read back by the rule for its first token. -/
theorem builds_item (hk : TokenSet.itemNodes.contains k = true) (h : Prepared k cs)
    (hsettled : (node k cs).isSettled = true) :
    Rule.item.step.Builds [node k cs] rest := by
  rw [TokenSet.itemNodes, TokenSet.contains_union, Bool.or_eq_true] at hk
  refine .rule leads_item ?_
  -- Functions and types have keywords of their own, the rest are statements.
  obtain hk | hk := hk
  · obtain rfl | rfl : k = .fnDecl ∨ k = .typeDecl := by simpa using hk
    · have hfirst := first_of_production rfl h.node_follows rest
      exact .taken (by simp [hfirst]) (builds_fnDecl h)
    · have hfirst := first_typeDecl h.node_follows rest
      refine .passed ?_ (.taken (by simpa [isAtAny] using hfirst) (builds_typeDecl h))
      simpa [isAt] using ne_of_contains hfirst (j := .kwFunction) (by decide)
  · have hfirst := first_statement hk h.node_follows rest
    refine .passed ?_ (.passed ?_ (.guarded ?_ (builds_statement hk h hsettled)))
    · simpa [isAt] using ne_of_contains hfirst (j := .kwFunction) (by decide)
    · have hopen := ne_of_contains hfirst (j := .kwOpen) (by decide)
      have htype := ne_of_contains hfirst (j := .kwType) (by decide)
      simp [isAtAny, hopen, htype]
    · simpa [isAtAny] using hfirst

/-- An item has one of its first tokens. -/
private theorem first_item (hk : TokenSet.itemNodes.contains k = true) (h : (node k cs).Follows)
    (rest : List (Kind × String)) :
    TokenSet.itemFirst.contains (kindAt (leavesOf cs ++ rest) 0) = true := by
  rw [TokenSet.itemNodes, TokenSet.contains_union, Bool.or_eq_true] at hk
  rw [TokenSet.itemFirst, TokenSet.contains_union, Bool.or_eq_true]
  -- A declaration by its keyword, or a statement by its first token.
  obtain hk | hk := hk
  · refine .inl ?_
    obtain rfl | rfl : k = .fnDecl ∨ k = .typeDecl := by simpa using hk
    · rw [first_of_production rfl h rest]
      decide
    · have hfirst := first_typeDecl h rest
      revert hfirst
      generalize kindAt (leavesOf cs ++ rest) 0 = j
      intro hfirst
      obtain rfl | rfl : j = .kwOpen ∨ j = .kwType := by simpa using hfirst
      all_goals decide
  · exact .inr (first_statement hk h rest)

/-- Before and after items there is nothing else than items. -/
private theorem first_items_ne {j : Kind} (h : InPlace .itemNodes ts) (hfollows : FollowsAll ts)
    (hj : TokenSet.itemFirst.contains j = false) (herror : j ≠ .error) :
    kindAt (leavesOf ts ++ []) 0 ≠ j := by
  cases ts with
  | nil => simpa using herror.symm
  | cons t ts =>
    obtain ⟨-, i, es, rfl, hi⟩ := h t List.mem_cons_self
    rw [followsAll_cons] at hfollows
    rw [leavesOf_cons, leaves_node, List.append_assoc]
    exact ne_of_contains (first_item hi hfollows.1 _) hj

/-- The loop over items reads back one node after the other. -/
private theorem builds_items (h : InPlace .itemNodes ts) (hfollows : FollowsAll ts)
    (hread : ∀ t ∈ ts, t.Readable) : Rule.items.step.Builds ts [] := by
  -- Induction on the items: none of them begins with a semicolon or ends the program.
  induction ts with
  | nil => exact .rule leads_items (.taken (by simp) .nil)
  | cons t ts ih =>
    obtain ⟨hsettled, j, ds, rfl, hj⟩ := h t List.mem_cons_self
    rw [followsAll_cons] at hfollows
    have hfirst := first_item hj hfollows.1 (leavesOf ts ++ [])
    have hitem := hread (node j ds) List.mem_cons_self .item (leavesOf ts ++ []) ⟨hj, hsettled⟩
    have hnext := first_items_ne (j := .semiColon) (fun u hu => h u (List.mem_cons_of_mem _ hu))
      hfollows.2 (by decide) (by decide)
    refine .rule leads_items (.passed ?_ (.passed ?_
      (.cons hitem (.idle (.mayNot hnext) (.last ?_)))))
    · have hsome := isEmpty_eq_false (ne_of_contains hfirst (by decide))
      simpa using hsome
    · simpa [isAt] using ne_of_contains hfirst (j := .semiColon) (by decide)
    · exact ih (fun u hu => h u (List.mem_cons_of_mem _ hu)) hfollows.2
        fun u hu => hread u (List.mem_cons_of_mem _ hu)

/-- The loop over imports reads back one node after the other. -/
private theorem builds_imports (h : InPlace (.single .importDecl) ts) (hfollows : FollowsAll ts)
    (hread : ∀ t ∈ ts, t.Readable) (hrest : kindAt rest 0 ≠ .kwImport) :
    Rule.imports.step.Builds ts rest := by
  -- Induction on the imports.
  induction ts with
  | nil => exact .rule leads_imports (.mayNot hrest)
  | cons t ts ih =>
    obtain ⟨hsettled, j, ds, rfl, hj⟩ := h t List.mem_cons_self
    obtain rfl : j = .importDecl := by simpa using hj
    rw [followsAll_cons] at hfollows
    have hfirst := first_of_production rfl hfollows.1 (leavesOf ts ++ rest)
    have himport := hread (node .importDecl ds) List.mem_cons_self .importDecl (leavesOf ts ++ rest)
      ⟨rfl, isTerminated_of_isSettled (by decide) hsettled⟩
    refine .rule leads_imports (.may (by simpa using hfirst) (.cons himport (.last ?_)))
    exact ih (fun u hu => h u (List.mem_cons_of_mem _ hu)) hfollows.2
      fun u hu => hread u (List.mem_cons_of_mem _ hu)

/-- The children of a node for `import* (item ;?)*` are read back by its rule. -/
theorem builds_program (h : Prepared .program cs) : Rule.program.step.Builds cs [] := by
  obtain ⟨hshape, harranged, hfollows, -, hread⟩ := h
  rw [Kind.arranges, List.all_eq_true] at harranged
  obtain ⟨is, us, rfl, his, us, vs, rfl, hus, rfl⟩ := hshape
  rw [List.append_nil] at harranged hfollows hread ⊢
  rw [followsAll_append] at hfollows
  -- The imports come first, and no item begins like one of them.
  have himports : InPlace (.single .importDecl) is := fun t ht =>
    ⟨harranged t (List.mem_append_left _ ht), Shape.matches_many_nodes.mp his t ht⟩
  have hitems : InPlace .itemNodes us := inPlace_of_many hus fun t ht =>
    harranged t (List.mem_append_right _ ht)
  have hfirst := first_items_ne (j := .kwImport) hitems hfollows.2 (by decide) (by decide)
  refine .rule leads_program (.append ?_ (.last ?_))
  · exact builds_imports himports hfollows.1
      (fun t ht => hread t (List.mem_append_left _ ht)) hfirst
  · exact builds_items hitems hfollows.2 fun t ht => hread t (List.mem_append_right _ ht)

end Grammar

end ScriptTree
