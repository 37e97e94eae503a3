import ScriptTree.Proofs.Reading

/-!
# What each rule reads

A `Step` leads from one reading to others.  For each rule, one lemma says which step it takes if
there are no mistakes, in terms of the tokens that it eats and the rules that it calls.  The steps
are written like the productions of the grammar, and later proofs never look at a script.

## Key results

- `Grammar.leads_ifStmt`, `Grammar.leads_primary`, `Grammar.leads_elements`, …: the steps of the
  rules
-/

namespace ScriptTree

/-- Where a script leads to without mistakes, whatever its answer. -/
def Script.Leads (lenient : Bool) (calls : Calls) (script : Script) : Step := fun x x' =>
  ∃ a, script.Reads lenient calls x a x'

namespace Grammar

open Step

variable {lenient : Bool} {calls : Calls} {x x' : Reading} {a : Bool}

/-! ## Lists -/

/-- Reads `open (element (, element)* ,?)? close` -/
def delimitedStep (calls : Calls) (form : ListForm) : Step :=
  row [token form.delimiter.opener, calls.To (.elements form), token form.delimiter.closer]

/-- A list between delimiters is read as `delimitedStep` says. -/
private theorem reads_delimited {form : ListForm} {next : Unit → Script} :
    (delimited form next).Reads lenient calls x a x' ↔
      ∃ y, delimitedStep calls form x y ∧ (next ()).Reads lenient calls y a x' := by
  simp only [delimited, Fragment.reads_bind, Fragment.reads_entered, Fragment.reads_enclosed,
    Fragment.unit, Fragment.reads_call, Fragment.reads_done, delimitedStep, row_cons, row_nil]
  constructor
  · intro h
    obtain ⟨hk, y₁, hopen, b, y₂, ⟨y₃, helements, -, rfl⟩, y, hclose, h⟩ := h
    rw [hk] at hopen
    exact ⟨y, ⟨y₁, hopen, y₂, helements, y, hclose, rfl⟩, h⟩
  · intro h
    obtain ⟨y, ⟨y₁, hopen, y₂, helements, y₃, hclose, rfl⟩, h⟩ := h
    have hk : kindAt x.input 0 = form.delimiter.opener := hopen.kindAt_eq
    rw [hk]
    exact ⟨rfl, y₁, hopen, true, y₂, ⟨y₂, helements, rfl, rfl⟩, y, hclose, h⟩

/-- The step of `(element (, element)* ,?)?`, up to the closer. -/
theorem leads_elements {form : ListForm} : (elements form).unit.Leads lenient calls x x' ↔
    branch List.isEmpty (row []) (branch (isAt form.delimiter.closer) (row [])
      (branch (isAtAny form.first)
        (row [calls.To form.element, branch (isAt .comma)
          (row [token .comma, calls.To (.elements form)])
          (guarded (fun i => !isAtAny form.first i) (row []))])
        (guarded (isAtAny .listStop) (row [])))) x x' := by
  -- Without a comma there must be no further element.
  have hcomma {y : Reading} {c : Bool} {P R : Prop} {Q : Reading → Prop} :
      (if kindAt y.input 0 = .comma then P
        else if c = true then ∃ z, y.Eats .comma z ∧ Q z else R) ↔
      if kindAt y.input 0 = .comma then P else c = false ∧ R := by
    by_cases hk : kindAt y.input 0 = .comma
    · simp [hk]
    · cases c <;> simp [hk, Reading.eats_of_ne]
  simp [Script.Leads, Fragment.unit, elements, branch, guarded, isAtAny, token, hcomma]

/-! ## Types -/

/-- The step of `type (| type)*`. -/
theorem leads_typeList : typeList.unit.Leads lenient calls x x' ↔
    node .typeList (row [calls.To .typeName, calls.To .unionTail]) x x' := by
  simp [Script.Leads, Fragment.unit, typeList, node]

/-- The step of `(| type)*`. -/
theorem leads_unionTail : unionTail.unit.Leads lenient calls x x' ↔
    may .pipe (row [token .pipe, calls.To .typeName, calls.To .unionTail]) x x' := by
  simp [Script.Leads, Fragment.unit, unionTail, may, branch, token]

/-- The step of `Name (< types (, types)* >)?`. -/
theorem leads_typeName : typeName.unit.Leads lenient calls x x' ↔
    node .typeName (row [token .identifier, may .less (node .typeArgs (row [token .less,
      calls.To .typeList, calls.To .typeArgTail, token .greater]))]) x x' := by
  rw [← may_node_any]
  by_cases hk : kindAt x.input 0 = .identifier <;>
    simp [Script.Leads, Fragment.unit, typeName, typeArgs, node, may,
      branch, token, any, hk, Reading.eats_of_ne]

/-- The step of `(, types)*`. -/
theorem leads_typeArgTail : typeArgTail.unit.Leads lenient calls x x' ↔
    may .comma (row [token .comma, calls.To .typeList, calls.To .typeArgTail]) x x' := by
  simp [Script.Leads, Fragment.unit, typeArgTail, may, branch, token]

/-! ## Declarations -/

/-- The step of `import* (item ;?)*`. -/
theorem leads_program : program.unit.Leads lenient calls x x' ↔
    row [calls.To .imports, calls.To .items] x x' := by
  simp [Script.Leads, Fragment.unit, program]

/-- The step of `import*`. -/
theorem leads_imports : imports.unit.Leads lenient calls x x' ↔
    may .kwImport (row [calls.To .importDecl, calls.To .imports]) x x' := by
  by_cases hempty : x.input = [] <;>
    simp [Script.Leads, Fragment.unit, imports, may, branch, hempty]

/-- The step of `(item ;?)*`. -/
theorem leads_items : items.unit.Leads lenient calls x x' ↔
    branch List.isEmpty (row []) (branch (isAt .semiColon)
      (guarded (fun _ => lenient) (row [token .semiColon, calls.To .items]))
      (row [calls.To .item, mayToken .semiColon, calls.To .items])) x x' := by
  by_cases hk : kindAt x.input 0 = .semiColon <;>
    simp [Script.Leads, Fragment.unit, items, branch, token,
      guarded, hk, Problem.severity]

/-- The step of an item: a function, a type or a statement, by its first token. -/
theorem leads_item : item.unit.Leads lenient calls x x' ↔
    branch (isAt .kwFunction) (calls.To .fnDecl)
      (branch (isAtAny (.ofList [.kwOpen, .kwType])) (calls.To .typeDecl)
        (guarded (isAtAny .stmtFirst) (calls.To .statement))) x x' := by
  simp only [Script.Leads, Fragment.unit, item, Fragment.reads_bind,
    Fragment.reads_current, branch, guarded]
  generalize hk : kindAt x.input 0 = k
  split
  case h_4 =>
    have hno : TokenSet.stmtFirst.contains .kwImport = false := by decide
    simp [isAtAny, hk, hno]
  case h_5 => simp_all [isAtAny]
  all_goals simp [isAtAny, hk]

/-- The step of `import "path" ;?`. -/
theorem leads_importDecl : importDecl.unit.Leads lenient calls x x' ↔
    node .importDecl (row [token .kwImport, tokens .stringLiterals, mayToken .semiColon]) x x' := by
  by_cases hk : kindAt x.input 0 = .kwImport <;>
    simp [Script.Leads, Fragment.unit, importDecl, token,
      tokens, any, isAtAny, node, hk, Reading.eats_of_ne, and_assoc]

/-- The step of `function name ( params ) (: types)? { ... }`. -/
theorem leads_fnDecl : fnDecl.unit.Leads lenient calls x x' ↔
    node .fnDecl (row [token .kwFunction, token .identifier, calls.To .fnTail]) x x' := by
  by_cases hk : kindAt x.input 0 = .kwFunction <;>
    simp [Script.Leads, Fragment.unit, fnDecl, node, token, hk,
      Reading.eats_of_ne]

/-- The step of `name : types`. -/
theorem leads_param : param.unit.Leads lenient calls x x' ↔
    node .param (row [any, token .colon, calls.To .typeList]) x x' := by
  simp [Script.Leads, Fragment.unit, param, ascription, node, token, any,
    row]

/-- The step of `( params ) (: types)? { ... }`, without the node around it. -/
theorem leads_fnTail : fnTail.unit.Leads lenient calls x x' ↔
    row [node .paramList (delimitedStep calls .params),
      may .colon (row [token .colon, calls.To .typeList]), calls.To .body] x x' := by
  rw [row_node_iff]
  by_cases hk : kindAt x.input 0 = .lParen
  · simp [Script.Leads, Fragment.unit, fnTail, reads_delimited, ↓row_may_row_iff, token, hk]
  · simp [Script.Leads, Fragment.unit, fnTail, delimitedStep, ListForm.delimiter, Delimiter.opener,
      token, hk, Reading.eats_of_ne]

/-- The step of `open? type Name { member* }`. -/
theorem leads_typeDecl : typeDecl.unit.Leads lenient calls x x' ↔
    node .typeDecl (row [mayToken .kwOpen, token .kwType, token .identifier, token .lCurly,
      calls.To .members, token .rCurly]) x x' := by
  simp [Script.Leads, Fragment.unit, typeDecl, Delimiter.closer, node, token,
    Reading.enclosed_iff]

/-- The step of `member*`, up to the closing brace. -/
theorem leads_members : members.unit.Leads lenient calls x x' ↔
    branch List.isEmpty (row []) (branch (isAt .rCurly) (row []) (branch (isAt .semiColon)
      (guarded (fun _ => lenient) (row [token .semiColon, calls.To .members]))
      (guarded (isAtAny .typeMemberFirst) (row [calls.To .member, calls.To .members])))) x x' := by
  simp only [Script.Leads, Fragment.unit, members, Fragment.reads_bind,
    Fragment.reads_stopped, branch, guarded]
  cases x.input.isEmpty with
  | true => simp
  | false =>
    simp only [Bool.false_eq_true, if_false, Fragment.reads_bind, Fragment.reads_current]
    generalize hk : kindAt x.input 0 = k
    split
    case h_3 => simp_all [isAt, isAtAny]
    all_goals simp [isAt, hk, token, Problem.severity]

/-- The words before the declaration of a member. -/
def modifiers : Step :=
  branch (isAt .kwPrivate) (row [token .kwPrivate, mayToken .kwStatic])
    (may .kwStatic (row [token .kwStatic, mayToken .kwPrivate]))

/-- A function or an attribute of a type. -/
def declaration (calls : Calls) : Step :=
  branch (isAt .kwFunction) (calls.To .fnDecl)
    (node .attrDecl (row [token .identifier, token .colon, calls.To .typeList,
      may .eq (calls.To .initializer)]))

/-- The declaration in a member is read as its keyword says. -/
private theorem reads_declaration : ((match kindAt x.input 0 with
      | .kwFunction => do
        Fragment.call .fnDecl
        Fragment.optionally .semiColon
      | .identifier => do
        attrDecl
        Fragment.optionally .semiColon
      | _ => do
        Fragment.missing .expectedIdentifier "an attribute or function declaration"
        Fragment.optionally .semiColon : Fragment Unit) fun _ => .done true).Reads
        lenient calls x a x' ↔
      a = true ∧ row [declaration calls, mayToken .semiColon] x x' := by
  generalize hk : kindAt x.input 0 = k
  -- The script always answers `true`.
  cases a with
  | false =>
    split <;> simp [attrDecl]
  | true =>
    split
    -- A function and its optional semicolon.
    · simp [declaration, branch, isAt, hk, may, token]
    · have hdeclaration : row [declaration calls, mayToken .semiColon] x x' ↔
          row [node .attrDecl (row [token .identifier, token .colon, calls.To .typeList,
            may .eq (calls.To .initializer)]), mayToken .semiColon] x x' := by
        simp [declaration, branch, isAt, hk]
      -- An attribute, the node of which stands for its fields.
      rw [hdeclaration, row_node_iff]
      simp [attrDecl, ascription, Fragment.unit, may, branch, token,
        hk]
    -- Anything else is complained about, so nothing is read.
    · simp_all [declaration, branch, isAt, node, token, Reading.eats_of_ne]

/-- The step of `(private static? | static private?)? (function ... | attribute) ;?`. -/
theorem leads_typeMember : typeMember.unit.Leads lenient calls x x' ↔
    node .typeMember (row [modifiers, declaration calls, mayToken .semiColon]) x x' := by
  simp only [Script.Leads, Fragment.unit, typeMember, Fragment.reads_node, Fragment.reads_bind,
    Fragment.reads_current]
  generalize hk : kindAt x.input 0 = k
  -- Each of the two words may be followed by the other one.
  have hwords (k k' : Kind) (y z : Reading) (b : Bool) (rest : Fragment Unit)
      (hk : kindAt y.input 0 = k) :
      ((do Fragment.bump; Fragment.optionally k'; rest) fun _ => .done true).Reads
        lenient calls y b z ↔ ∃ w, row [token k, mayToken k'] y w ∧
          (rest fun _ => .done true).Reads lenient calls w b z := by
    simp only [Fragment.reads_bind, Fragment.reads_bump, Fragment.reads_optionally, hk]
    constructor
    · intro h
      obtain ⟨y₁, hfirst, y₂, hsecond, h⟩ := h
      exact ⟨y₂, ⟨y₁, hfirst, y₂, hsecond, rfl⟩, h⟩
    · intro h
      obtain ⟨w, ⟨y₁, hfirst, y₂, hsecond, rfl⟩, h⟩ := h
      exact ⟨y₁, hfirst, w, hsecond, h⟩
  constructor
  · intro h
    obtain ⟨a, b, z, h, -, rfl⟩ := h
    refine ⟨z, ?_, rfl⟩
    split at h
    -- `private`, then `static` or not.
    · obtain ⟨y, hy, h⟩ := (hwords .kwPrivate .kwStatic ⟨x.input, []⟩ z b _ hk).mp h
      exact ⟨y, by simpa [modifiers, branch, isAt, hk] using hy, (reads_declaration.mp h).2⟩
    -- `static`, then `private` or not.
    · obtain ⟨y, hy, h⟩ := (hwords .kwStatic .kwPrivate ⟨x.input, []⟩ z b _ hk).mp h
      exact ⟨y, by simpa [modifiers, may, branch, isAt, hk] using hy, (reads_declaration.mp h).2⟩
    -- Neither of the words.
    · refine ⟨_, ?_, (reads_declaration.mp h).2⟩
      simp_all [modifiers, branch, isAt, may]
  · intro h
    obtain ⟨z, ⟨y, hy, h⟩, rfl⟩ := h
    refine ⟨true, true, z, ?_, rfl, rfl⟩
    -- The branch of the script is given by the word that the step found.
    split
    · exact (hwords .kwPrivate .kwStatic ⟨x.input, []⟩ z true _ hk).mpr
        ⟨y, by simpa [modifiers, branch, isAt, hk] using hy, reads_declaration.mpr ⟨rfl, h⟩⟩
    · exact (hwords .kwStatic .kwPrivate ⟨x.input, []⟩ z true _ hk).mpr
        ⟨y, by simpa [modifiers, may, branch, isAt, hk] using hy, reads_declaration.mpr ⟨rfl, h⟩⟩
    · obtain rfl : y = ⟨x.input, []⟩ := by simp_all [modifiers, branch, isAt, may]
      exact reads_declaration.mpr ⟨rfl, h⟩

/-! ## Statements -/

/-- The step of `= expr`. -/
theorem leads_initializer : initializer.unit.Leads lenient calls x x' ↔
    node .initializer (row [token .eq, calls.To .expr]) x x' := by
  by_cases hk : kindAt x.input 0 = .eq <;>
    simp [Script.Leads, Fragment.unit, initializer, node, token, hk, Reading.eats_of_ne]

/-- The step of `{ statement+ } ;?`. -/
theorem leads_block : block.unit.Leads lenient calls x x' ↔
    node .block (row [token .lCurly, fun x y => calls (.statements false) x true y, token .rCurly,
      mayToken .semiColon]) x x' := by
  by_cases hk : kindAt x.input 0 = .lCurly <;>
    simp [Script.Leads, Fragment.unit, Fragment.script, block, Delimiter.closer, node, token, hk,
      Reading.eats_of_ne]

/-- The step of `{ statement* }`. -/
theorem leads_body : body.unit.Leads lenient calls x x' ↔
    node .logicBlock (row [token .lCurly, calls.To (.statements false), token .rCurly]) x x' := by
  by_cases hk : kindAt x.input 0 = .lCurly <;>
    simp [Script.Leads, Fragment.unit, body, Delimiter.closer, node, token, hk,
      Reading.eats_of_ne]

/-- The loop over statements is read up to a closing brace or the end, and answers whether there was
    one. -/
theorem reads_statements {seen : Bool} : (statements seen).script.Reads lenient calls x a x' ↔
    if (x.input.isEmpty || isAt .rCurly x.input) = true then a = seen ∧ x' = x
    else if isAt .semiColon x.input = true then
      lenient = true ∧ ∃ y, token .semiColon x y ∧ calls (.statements seen) y a x'
    else isAtAny .stmtFirst x.input = true ∧
      ∃ y, calls.To .statement x y ∧ calls (.statements true) y a x' := by
  simp only [Fragment.script, statements, Fragment.reads_bind, Fragment.reads_stopped]
  cases x.input.isEmpty with
  | true => simp
  | false =>
    simp only [Bool.false_eq_true, if_false, Fragment.reads_bind, Fragment.reads_current]
    -- One case for each branch on the next kind; those that complain read nothing.
    generalize hk : kindAt x.input 0 = k
    split
    -- The closing brace.
    case h_1 => simp [isAt, hk]
    -- A semicolon is taken with a warning.
    case h_2 => simp [isAt, hk, token, Problem.severity]
    -- What starts no statement is complained about.
    case h_7 => simp_all [isAt, isAtAny, recoverStatement]
    all_goals
      have hno : isAtAny .stmtFirst x.input = false := by
        rw [isAtAny, hk]
        decide
      simp [isAt, hk, hno]

/-- The step of `if ( expr ) { ... } (else (if ... | { ... }))? ;?`. -/
theorem leads_ifStmt {terminated : Bool} : (ifStmt terminated).unit.Leads lenient calls x x' ↔
    node .ifStmt (row [token .kwIf, token .lParen, calls.To .expr, token .rParen, calls.To .body,
      may .kwElse (node .elseClause (row [token .kwElse,
        branch (isAt .kwIf) (calls.To (.ifStmt false)) (calls.To .body)])),
      if terminated then mayToken .semiColon else row []]) x x' := by
  rw [← may_node_any]
  by_cases hk : kindAt x.input 0 = .kwIf
  · cases terminated <;>
      simp [Script.Leads, Fragment.unit, ifStmt, condition, ↓row_may_node_iff, node, token, any,
        branch, hk]
  · simp [Script.Leads, Fragment.unit, ifStmt, node, token, hk, Reading.eats_of_ne]

/-- Reads `expr ;?` -/
def exprStep (calls : Calls) : Step := node .exprStmt (row [calls.To .expr, mayToken .semiColon])

/-- Reads `while ( expr ) { ... } ;?` -/
def whileStep (calls : Calls) : Step :=
  node .whileStmt (row [token .kwWhile, token .lParen, calls.To .expr, token .rParen,
    calls.To .body, mayToken .semiColon])

/-- Reads `for ( name = expr ; expr ; expr ) { ... } ;?` -/
def forStep (calls : Calls) : Step :=
  node .forStmt (row [token .kwFor, token .lParen, token .identifier, token .eq, calls.To .expr,
    token .semiColon, calls.To .expr, token .semiColon,
    guarded (isAtAny .exprFirst) (node .exprStmt (calls.To .expr)), token .rParen, calls.To .body,
    mayToken .semiColon])

/-- Reads `var name (: types)? (= expr)? ;?` -/
def varStep (calls : Calls) : Step :=
  node .varStmt (row [token .kwVar, token .identifier,
    may .colon (row [token .colon, calls.To .typeList]), may .eq (row [calls.To .initializer]),
    mayToken .semiColon])

/-- Reads `return expr ;?` -/
def returnStep (calls : Calls) : Step :=
  node .returnStmt (row [token .kwReturn, calls.To .expr, mayToken .semiColon])

/-- The step of a statement: braces and keywords tell which one it is. -/
theorem leads_statement : statement.unit.Leads lenient calls x x' ↔
    branch (isAt .lCurly) (branch startsRecord (exprStep calls) (calls.To .block))
      (branch (isAt .kwIf) (calls.To (.ifStmt true))
        (branch (isAt .kwWhile) (whileStep calls)
          (branch (isAt .kwFor) (forStep calls)
            (branch (isAt .kwVar) (varStep calls)
              (branch (isAt .kwReturn) (returnStep calls)
                (guarded (isAtAny .exprFirst) (exprStep calls))))))) x x' := by
  simp only [Script.Leads, Fragment.unit, statement, Fragment.reads_bind, Fragment.reads_deeper,
    Fragment.reads_current, branch, guarded]
  generalize hk : kindAt x.input 0 = k
  -- The grammar looks at the first token only; a brace needs the second look.
  split
  case h_1 =>
    cases hrecord : startsRecord x.input <;>
      simp [isAt, hk, hrecord, exprStmt, exprStep, Fragment.unit, node]
  case h_2 => simp [isAt, hk]
  case h_3 => simp [isAt, hk, whileStmt, whileStep, condition, Fragment.unit, node, token]
  case h_4 =>
    simp [isAt, hk, forStmt, forStep, exprStmt, Fragment.unit, ↓row_guarded_iff,
      ↓row_node_iff, node, token, isAtAny]
  case h_5 =>
    simp [isAt, hk, varStmt, varStep, Fragment.unit, ↓row_may_row_iff, node, token,
      Fragment.exists_eats_iff]
  case h_6 => simp [isAt, hk, returnStmt, returnStep, Fragment.unit, node, token]
  case h_7 => simp_all [isAt, isAtAny, exprStmt, exprStep, recoverStatement, Fragment.unit, node]

/-! ## Expressions -/

/-- The step of an expression: a chain in a group of its own. -/
theorem leads_expr : expr.unit.Leads lenient calls x x' ↔
    guarded (isAtAny .exprFirst) (group (calls.To .chain)) x x' := by
  simp [Script.Leads, Fragment.unit, expr, guarded, isAtAny, group]

/-- The step of `unary (op chain | is Name)?`, where the operator wraps what is there. -/
theorem leads_chain : chain.unit.Leads lenient calls x x' ↔
    row [branch (isAtAny .prefixOps) (calls.To (.prefixes 0)) (calls.To .operand),
      branch (isAtAny .binaryOps)
        (wrap .binaryExpr (row [tokens .binaryOps,
          guarded (isAtAny .exprFirst) (group (calls.To .chain))]))
        (may .kwIs (wrap .isExpr (row [token .kwIs, token .identifier])))] x x' := by
  rw [← branch_wrap_any, ← may_wrap_any]
  by_cases hop : TokenSet.prefixOps.contains (kindAt x.input 0) = true <;>
    simp [Script.Leads, Fragment.unit, chain, unary, guarded, isAtAny, group, branch, wrap, any,
      may, token, hop, Reading.kindAt_and_eats_iff]

/-- The step of `(! | + | -)* operand`, where a second operator is a mistake. -/
theorem leads_prefixes {count : Nat} : (prefixes count).unit.Leads lenient calls x x' ↔
    branch (isAtAny .prefixOps)
      (guarded (fun _ => count ≠ 1)
        (node .prefixExpr (row [tokens .prefixOps, calls.To (.prefixes (count + 1))])))
      (guarded (isAtAny .primaryFirst) (calls.To .operand)) x x' := by
  by_cases hop : TokenSet.prefixOps.contains (kindAt x.input 0) = true <;>
    simp [Script.Leads, Fragment.unit, prefixes, prefixOperand, guarded, isAtAny, branch, node,
      tokens, any, hop]

/-- Reads `new? primary accessor*` -/
def memberStep (calls : Calls) : Step :=
  group (branch (isAt .kwNew)
    (node .memberExpr (row [token .kwNew, calls.To .primary, calls.To (.accessors true)]))
    (row [calls.To .primary, calls.To (.accessors false)]))

/-- The step of `member (++ | --)?`, where the operator wraps what is there. -/
theorem leads_operand : operand.unit.Leads lenient calls x x' ↔
    group (row [memberStep calls,
      branch (isAtAny .postfixOps) (wrap .postfixExpr (row [tokens .postfixOps])) (row [])])
      x x' := by
  rw [← branch_wrap_any]
  by_cases hk : kindAt x.input 0 = .kwNew <;>
    simp [Script.Leads, Fragment.unit, operand, member, memberStep, group, isAtAny, branch, wrap,
      node, any, token, hk]

/-- What each accessor reads. -/
def accessorStep (calls : Calls) : Accessor → Step
  | .field => node .fieldAccess (row [token .dot, tokens .identifierNames])
  | .static => node .staticAccess (row [token .colon, token .colon, tokens .identifierNames])
  | .index => node .indexAccess (row [token .lBracket, calls.To .expr, token .rBracket])
  | .arguments => node .callArgs (delimitedStep calls .callArgs)
  | .nonNull => node .nonNullAssert (token .exclMark)

/-- An accessor is read as `accessorStep` says, where it stands. -/
private theorem reads_accessor {b : Accessor} (hat : accessorAt x.input = some b)
    {next : Unit → Script} : (accessor b next).Reads lenient calls x a x' ↔
      ∃ y, accessorStep calls b x y ∧ (next ()).Reads lenient calls y a x' := by
  unfold accessorAt at hat
  generalize hk : kindAt x.input 0 = k at hat
  split at hat
  case h_2 =>
    split at hat
    next hk' =>
      cases hat
      -- The second colon was seen before the first one was eaten.
      have hsecond {y : Reading} (h : (⟨x.input, []⟩ : Reading).Eats .colon y) :
          kindAt y.input 0 = .colon := by
        rw [← h.kindAt_succ]
        exact hk'
      rw [accessorStep, exists_node_iff]
      simp only [accessor, Accessor.kind, Fragment.reads_node, Fragment.unit, Fragment.reads_bind,
        Fragment.reads_bump, hk, reads_memberName, Fragment.reads_done, row_cons, row_nil]
      constructor
      · intro h
        obtain ⟨b, y, ⟨y₁, hcolon, y₂, hcolon', hname, y₃, hmember, -, rfl⟩, h⟩ := h
        rw [hsecond hcolon] at hcolon'
        exact ⟨y, ⟨y₁, hcolon, y₂, hcolon', y, ⟨hname, hmember⟩, rfl⟩, h⟩
      · intro h
        obtain ⟨y, ⟨y₁, hcolon, y₂, hcolon', y₃, ⟨hname, hmember⟩, rfl⟩, h⟩ := h
        refine ⟨true, y, ⟨y₁, hcolon, y₂, ?_, hname, y, hmember, rfl, rfl⟩, h⟩
        rw [hsecond hcolon]
        exact hcolon'
    · cases hat
  case h_6 => cases hat
  all_goals
    cases hat
    rw [accessorStep, exists_node_iff]
    simp [accessor, Accessor.kind, reads_delimited, Delimiter.closer, Fragment.unit, token, tokens,
      any, isAtAny, hk]

/-- The step of `accessor*`: the first accessor wraps what is there, and the others join it. -/
theorem leads_accessors {wrapped : Bool} : (accessors wrapped).unit.Leads lenient calls x x' ↔
    match accessorAt x.input with
    | none => x' = x
    | some b =>
      if wrapped = true then row [accessorStep calls b, calls.To (.accessors true)] x x'
      else wrap .memberExpr (row [accessorStep calls b, calls.To (.accessors true)]) x x' := by
  simp only [Script.Leads, Fragment.unit, accessors, Fragment.reads_bind, reads_accessorHere]
  cases hat : accessorAt x.input with
  | none => simp
  | some b =>
    cases wrapped with
    | true => simp [reads_accessor hat]
    | false => simp [reads_accessor hat, wrap, Fragment.unit]

/-- The step of a primary expression: the first tokens tell which one it is. -/
theorem leads_primary : primary.unit.Leads lenient calls x x' ↔
    branch (isAt .identifier)
      (branch startsArray
        (node .arrayLiteral (row [token .identifier, delimitedStep calls .array]))
        (branch (kindAt · 1 == .lCurly)
          (node .recordLiteral (row [token .identifier, delimitedStep calls .record]))
          (node .nameRef (token .identifier))))
      (branch (isAt .hash) (node .refLiteral (row [token .hash, token .identifier]))
        (branch (isAt .lCurly) (node .recordLiteral (delimitedStep calls .record))
          (branch (isAt .lBracket) (node .arrayLiteral (delimitedStep calls .array))
            (branch (isAt .lParen)
              (branch startsFnLiteral (node .fnLiteral (calls.To .fnTail))
                (node .parenExpr (row [token .lParen, calls.To .expr, token .rParen])))
              (node .literal (tokens .literals)))))) x x' := by
  simp only [Script.Leads, Fragment.unit, primary, Fragment.reads_bind, Fragment.reads_current,
    branch]
  generalize hk : kindAt x.input 0 = k
  -- The kind of the next token picks the branch, in the order of the grammar.
  split
  case h_1 =>
    -- A name may be the type of an array or of a record.
    cases harray : startsArray x.input <;> by_cases hcurly : kindAt x.input 1 = .lCurly <;>
      simp [isAt, hk, harray, hcurly, reads_delimited, Fragment.unit, node, token]
  case h_2 => simp [isAt, hk, Fragment.unit, node, token]
  case h_3 => simp [isAt, hk, reads_delimited, Fragment.unit, node]
  case h_4 => simp [isAt, hk, reads_delimited, Fragment.unit, node]
  case h_5 =>
    -- A parenthesis may open the parameters of a function.
    cases hfn : startsFnLiteral x.input <;>
      simp [isAt, hk, hfn, Delimiter.closer, Fragment.unit, node, token]
  case h_6 => simp_all [isAt, isAtAny, Fragment.unit, node, tokens, any, and_assoc]

/-- The step of `name : expr`. -/
theorem leads_recordProp : recordProp.unit.Leads lenient calls x x' ↔
    node .recordProp (row [any, token .colon, calls.To .expr]) x x' := by
  simp [Script.Leads, Fragment.unit, recordProp, node, token, any]

end Grammar

end ScriptTree
