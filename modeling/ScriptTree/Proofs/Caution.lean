import ScriptTree.Proofs.Foresight

/-!
# No rule looks beyond the end

All rules but those of the top level mind the end of the text (`Script.Minds`).  Most of them end
with a token that is no semicolon, or look at what comes after them.  What may end with a semicolon
does not look beyond it, and is only followed by what asks for more where more has to come.

## Key results

- `Rule.minds`: the rules mind the end of the text
- `Rule.run_beside`: so they do the same, whatever follows the text
-/

namespace ScriptTree

/-! ## Steps -/

namespace Fragment

variable {α β : Type} {alive own sure : Bool} {view : Nat → Kind} {post : Bool → Prop}

/-- A script that is done may leave the end unknown only if `post` allows it. -/
@[simp] theorem minds_done {answer : Bool} :
    (Script.done answer).Minds alive own sure view post ↔ post (alive || sure) := Iff.rfl

/-- Fragments in sequence are walked through in sequence. -/
@[simp] theorem minds_bind (m : Fragment α) (f : α → Fragment β) (next : β → Script) :
    ((m >>= f) next).Minds alive own sure view post ↔
      (m fun a => f a next).Minds alive own sure view post := Iff.rfl

/-- Handing on a value is no look. -/
@[simp] theorem minds_pure (a : α) (next : α → Script) :
    ((pure a : Fragment α) next).Minds alive own sure view post ↔
      (next a).Minds alive own sure view post := Iff.rfl

/-- The branch that is taken is walked through. -/
@[simp] theorem minds_ite (c : Prop) [Decidable c] (m n : Fragment α) (next : α → Script) :
    ((if c then m else n) next).Minds alive own sure view post ↔
      if c then (m next).Minds alive own sure view post
      else (n next).Minds alive own sure view post := by
  split <;> rfl

/-- Fragments in sequence are doomed as the first one is. -/
@[simp] theorem doomed_bind (m : Fragment α) (f : α → Fragment β) (next : β → Script) :
    ((m >>= f) next).doomed = (m fun a => f a next).doomed := rfl

@[simp] theorem doomed_pure (a : α) (next : α → Script) :
    ((pure a : Fragment α) next).doomed = (next a).doomed := rfl

@[simp] theorem doomed_ite (c : Prop) [Decidable c] (m n : Fragment α) (next : α → Script) :
    ((if c then m else n) next).doomed = if c then (m next).doomed else (n next).doomed := by
  split <;> rfl

/-- At the end of the text there is nothing ahead. -/
@[simp] theorem doomed_ahead (n : Nat) (next : Kind → Script) :
    (ahead n next).doomed = (next .error).doomed := rfl

/-- At the end of the text nothing can be consumed. -/
@[simp] theorem doomed_bump (next : Unit → Script) : (bump next).doomed = true := rfl

/-- A complaint is what a doomed script comes to. -/
@[simp] theorem doomed_complain (problem : Problem) (detail expected : Option String)
    (next : Unit → Script) : (complain problem detail expected next).doomed = true := rfl

/-- A complaint is what a doomed script comes to. -/
@[simp] theorem doomed_missing (problem : Problem) (what : String) (next : Unit → Script) :
    (missing problem what next).doomed = true := rfl

/-- Of a rule that is called nothing is said. -/
@[simp] theorem doomed_call (rule : Rule) (next : Unit → Script) :
    (call rule next).doomed = false := rfl

/-- A look by several tokens must be allowed, and must not go beyond a semicolon. -/
@[simp] theorem minds_ahead (n : Nat) (next : Kind → Script) :
    (ahead n next).Minds alive own sure view post ↔
      (alive || sure || (next .error).doomed) = true ∧ (∀ i < n, view i ≠ .semiColon) ∧
        (next (view n)).Minds alive own true view post := Iff.rfl

/-- A look at the current token must be allowed; after it something is sure to be left. -/
@[simp] theorem minds_current (next : Kind → Script) :
    (current next).Minds alive own sure view post ↔
      (alive || sure || (next .error).doomed) = true ∧
        (next (view 0)).Minds alive own true view post := by
  simp [current]

/-- A look at the current text must be allowed. -/
@[simp] theorem minds_currentText (next : String → Script) :
    (currentText next).Minds alive own sure view post ↔ (alive || sure) = true ∧
      ∀ text, (next text).Minds alive own true view post := Iff.rfl

/-- To ask for the end is a look beyond what has been read. -/
@[simp] theorem minds_stopped (next : Bool → Script) :
    (stopped next).Minds alive own sure view post ↔ (alive || sure) = true ∧
      ∀ b, (next b).Minds alive own true view post := Iff.rfl

/-- Nothing runs out where nothing is reported. -/
@[simp] theorem minds_exhausted (next : Bool → Script) :
    (exhausted next).Minds alive own sure view post ↔
      (next false).Minds alive own sure view post := Iff.rfl

/-- Behind a semicolon the text may be at its end. -/
@[simp] theorem minds_bump (next : Unit → Script) :
    (bump next).Minds alive own sure view post ↔
      (next ()).Minds alive own (decide (view 0 ≠ .semiColon)) (fun i => view (i + 1)) post :=
  Iff.rfl

/-- A complaint need not be followed. -/
@[simp] theorem minds_complain (problem : Problem) (detail expected : Option String)
    (next : Unit → Script) :
    (complain problem detail expected next).Minds alive own sure view post := trivial

/-- A complaint need not be followed. -/
@[simp] theorem minds_missing (problem : Problem) (what : String) (next : Unit → Script) :
    (missing problem what next).Minds alive own sure view post := trivial

/-- A warning need not be followed. -/
@[simp] theorem minds_remark (problem : Problem) (next : Unit → Script) :
    (remark problem next).Minds alive own sure view post := trivial

/-- A node minds what its body minds, and nothing is known of the tokens after it. -/
@[simp] theorem minds_node (k : Kind) (body : Fragment Unit) (next : Unit → Script) :
    (node k body next).Minds alive own sure view post ↔
      body.unit.Minds alive true sure view fun sure =>
        ∀ view, (next ()).Minds alive own sure view post := Iff.rfl

/-- A group minds what its body minds, and nothing is known of the tokens after it. -/
@[simp] theorem minds_group (body : Fragment Unit) (next : Unit → Script) :
    (group body next).Minds alive own sure view post ↔
      body.unit.Minds alive true sure view fun sure =>
        ∀ view, (next ()).Minds alive own sure view post := Iff.rfl

/-- Only what owns the frame may wrap it. -/
@[simp] theorem minds_wrap (k : Kind) (body : Fragment Unit) (next : Unit → Script) :
    (wrap k body next).Minds alive own sure view post ↔ own = true ∧
      body.unit.Minds alive own sure view fun sure =>
        ∀ view, (next ()).Minds alive own sure view post := Iff.rfl

/-- A level that is refused is reported, so only one that is granted is followed. -/
@[simp] theorem minds_deeper (body : Fragment Unit) (next : Bool → Script) :
    (deeper body next).Minds alive own sure view post ↔
      body.unit.Minds alive own sure view fun sure =>
        ∀ view, (next true).Minds alive own sure view post := Iff.rfl

/-- Inside the delimiters the text goes on, for the closer is ahead. -/
@[simp] theorem minds_enclosed (d : Delimiter) (construct : String) (body : Fragment Unit)
    (next : Unit → Script) :
    (enclosed d construct body next).Minds alive own sure view post ↔
      (∀ view, body.unit.Minds true own true view fun _ => True) ∧
        ∀ view, (next ()).Minds alive own true view post := Iff.rfl

/-- As `minds_enclosed`. -/
@[simp] theorem minds_enclosedNonempty (d : Delimiter) (construct : String) (ifEmpty : Problem)
    (body : Fragment Bool) (next : Unit → Script) :
    (enclosedNonempty d construct ifEmpty body next).Minds alive own sure view post ↔
      (∀ view, body.script.Minds true own true view fun _ => True) ∧
        ∀ view, (next ()).Minds alive own true view post := Iff.rfl

/-- A rule is called where it may look ahead, and owns the frame if it regroups. -/
@[simp] theorem minds_ask (rule : Rule) (next : Bool → Script) :
    (ask rule next).Minds alive own sure view post ↔
      (alive || sure || rule.script.doomed) = true ∧ (rule.isInner = true → alive = true) ∧
        (rule.regroups = true → own = true) ∧ rule.isTop = false ∧
          ∀ a view, (next a).Minds alive own (!rule.isTerminated) view post := Iff.rfl

/-- A rule is called where it may look ahead, and owns the frame if it regroups. -/
@[simp] theorem minds_call (rule : Rule) (next : Unit → Script) :
    (call rule next).Minds alive own sure view post ↔
      (alive || sure || rule.script.doomed) = true ∧ (rule.isInner = true → alive = true) ∧
        (rule.regroups = true → own = true) ∧ rule.isTop = false ∧
          ∀ view, (next ()).Minds alive own (!rule.isTerminated) view post := by
  simp [call, Script.Minds]

/-- A test is a look at the current token. -/
@[simp] theorem minds_isAt (k : Kind) (next : Bool → Script) :
    (isAt k next).Minds alive own sure view post ↔
      (alive || sure || (next (.error == k)).doomed) = true ∧
        (next (view 0 == k)).Minds alive own true view post := by
  simp [isAt]

/-- A test is a look at the current token. -/
@[simp] theorem minds_isAtAny (set : TokenSet) (next : Bool → Script) :
    (isAtAny set next).Minds alive own sure view post ↔
      (alive || sure || (next (set.contains .error)).doomed) = true ∧
        (next (set.contains (view 0))).Minds alive own true view post := by
  simp [isAtAny]

/-- A token is looked at, and eaten if it is there. -/
@[simp] theorem minds_eat (k : Kind) (next : Bool → Script) :
    (eat k next).Minds alive own sure view post ↔
      (alive || sure || if Kind.error = k then true else (next false).doomed) = true ∧
        if view 0 = k then
          (next true).Minds alive own (decide (k ≠ .semiColon)) (fun i => view (i + 1)) post
        else (next false).Minds alive own true view post := by
  by_cases hk : view 0 = k <;> simp [eat, hk]

/-- A token is looked at, and eaten if it is there. -/
@[simp] theorem minds_optionally (k : Kind) (next : Unit → Script) :
    (optionally k next).Minds alive own sure view post ↔
      (alive || sure || if Kind.error = k then true else (next ()).doomed) = true ∧
        if view 0 = k then
          (next ()).Minds alive own (decide (k ≠ .semiColon)) (fun i => view (i + 1)) post
        else (next ()).Minds alive own true view post := by
  simp [optionally]

/-- What is missing at the end of the text is reported. -/
@[simp] theorem minds_expect (k : Kind) (what : String) (next : Bool → Script) :
    (expect k what next).Minds alive own sure view post ↔ (view 0 = k →
      (next true).Minds alive own (decide (k ≠ .semiColon)) (fun i => view (i + 1)) post) := by
  by_cases hk : view 0 = k <;> simp [expect, hk]

/-- A token that is missing is complained about, so it is there, whatever is left. -/
@[simp] theorem minds_require (k : Kind) (what : String) (next : Unit → Script) :
    (require k what next).Minds alive own sure view post ↔ (view 0 = k →
      (next ()).Minds alive own (decide (k ≠ .semiColon)) (fun i => view (i + 1)) post) := by
  simp [require]

/-- A name that is missing is complained about, so it is there, whatever is left. -/
@[simp] theorem minds_identifier (what : String) (next : Unit → Script) :
    (identifier what next).Minds alive own sure view post ↔ (view 0 = .identifier →
      (next ()).Minds alive own true (fun i => view (i + 1)) post) := by
  by_cases hk : view 0 = .identifier <;> simp [identifier, hk]

/-- The assertion about where a rule begins is a look. -/
@[simp] theorem minds_entered (k : Kind) (next : Unit → Script) :
    (entered k next).Minds alive own sure view post ↔
      (alive || sure || if Kind.error = k then (next ()).doomed else true) = true ∧
        (view 0 = k → (next ()).Minds alive own true view post) := by
  by_cases hk : view 0 = k <;> by_cases herror : Kind.error = k <;>
    simp [entered, Script.Minds, Script.doomed, hk, herror]

/-- Nothing is set aside without a complaint. -/
@[simp] theorem minds_setAside (problem : Problem) (what : String) (stops : TokenSet)
    (rest : Fragment Unit) (next : Unit → Script) :
    (setAside problem what stops rest next).Minds alive own sure view post := by
  simp [setAside, Fragment.unit]

end Fragment

/-! ## The rules -/

/-- A set without the semicolon. -/
private theorem TokenSet.ne_semiColon {set : TokenSet} {k : Kind} (h : set.contains k = true)
    (hset : set.contains .semiColon = false) : k ≠ .semiColon := by
  intro hk
  subst hk
  rw [hset] at h
  cases h

namespace Grammar

open Fragment

variable {alive own sure : Bool} {view : Nat → Kind} {post : Bool → Prop}

/-- Up to four tokens decide whether a record starts, and but for the last one they are no
    semicolons. -/
private theorem minds_atRecordBody {next : Bool → Script} (hopen : view 0 = .lCurly)
    (h : ∀ b, (next b).Minds alive own true view post) :
    (atRecordBody next).Minds alive own true view post := by
  simp only [atRecordBody, minds_bind, minds_ahead, minds_ite, minds_pure,
    Nat.forall_lt_succ_right, Nat.not_lt_zero, false_implies, implies_true, hopen]
  refine ⟨by simp, by simp, ?_⟩
  split
  · next hname =>
    have hname := TokenSet.ne_semiColon hname rfl
    refine ⟨by simp, by simp [hname], ?_⟩
    split
    · next hcolon => exact ⟨by simp, by simp [hname, hcolon], h _⟩
    · exact h _
  · exact h _

/-- The look at whether a function literal begins goes no further ahead than it sees the text go
    on. -/
private theorem minds_atFnLiteral {next : Bool → Script} (hopen : view 0 = .lParen)
    (h : ∀ b, (next b).Minds alive own true view post) :
    (atFnLiteral next).Minds alive own true view post := by
  -- The scan looks at up to four tokens, and each look needs those before it to be no semicolon.
  simp only [atFnLiteral, minds_bind, minds_ahead, Nat.forall_lt_succ_right, Nat.not_lt_zero,
    false_implies, implies_true, hopen]
  refine ⟨by simp, by simp, ?_⟩
  generalize hname : view 1 = k
  split
  · exact h _
  · simp only [minds_bind, minds_ahead, minds_ite, minds_pure]
    refine ⟨by simp, fun i hi => ?_, ?_⟩
    · obtain rfl | rfl : i = 0 ∨ i = 1 := by omega
      · simp [hopen]
      · simp [hname]
    split
    · next hcolon =>
      refine ⟨by simp, fun i hi => ?_, h _⟩
      obtain rfl | rfl | rfl : i = 0 ∨ i = 1 ∨ i = 2 := by omega
      · simp [hopen]
      · simp [hname]
      · simp [hcolon]
    · exact h _
  · exact h _

/-- What an accessor starts with. -/
def Accessor.Starts (view : Nat → Kind) : Accessor → Prop
  | field => view 0 = .dot
  | static => view 0 = .colon ∧ view 1 = .colon
  | index => view 0 = .lBracket
  | arguments => view 0 = .lParen
  | nonNull => view 0 = .exclMark

/-- The look at which accessor comes goes no further ahead than it sees the text go on. -/
private theorem minds_accessorHere {next : Option Accessor → Script}
    (hnone : (next none).Minds alive own true view post)
    (hsome : ∀ a : Accessor, a.Starts view → (next (some a)).Minds alive own true view post) :
    (accessorHere next).Minds alive own true view post := by
  simp only [accessorHere, minds_bind, minds_current]
  refine ⟨by simp, ?_⟩
  generalize hk : view 0 = k
  split
  · exact hsome .field hk
  · simp only [minds_bind, minds_ahead, minds_ite, minds_pure]
    refine ⟨by simp, by simp [hk], ?_⟩
    split
    · next hcolon => exact hsome .static ⟨hk, hcolon⟩
    · exact hnone
  · exact hsome .index hk
  · exact hsome .arguments hk
  · exact hsome .nonNull hk
  · exact hnone

/-- The name behind a dot does not look beyond the end of the text. -/
private theorem minds_memberName (after : String) {next : Unit → Script}
    (h : ∀ view, (next ()).Minds alive own true view post) :
    (memberName after next).Minds alive own true view post := by
  simp only [memberName, minds_bind, minds_isAtAny, minds_ite, minds_bump, minds_missing]
  refine ⟨by simp, ?_⟩
  split
  · next hname => simpa [TokenSet.ne_semiColon hname rfl] using h _
  · trivial

/-- What an accessor ends with is no semicolon. -/
private theorem minds_accessor {a : Accessor} (hstarts : a.Starts view) {next : Unit → Script}
    (h : ∀ view, (next ()).Minds alive own true view post) :
    (accessor a next).Minds alive own true view post := by
  cases a with
  | field =>
    have hdot : view 0 = .dot := hstarts
    simp only [accessor, minds_node, unit, minds_bind, minds_bump, hdot]
    exact minds_memberName _ fun _ => by simpa using h
  | static =>
    obtain ⟨hcolon, hcolon'⟩ : view 0 = .colon ∧ view 1 = .colon := hstarts
    simp only [accessor, minds_node, unit, minds_bind, minds_bump, hcolon']
    exact minds_memberName _ fun _ => by simpa using h
  | index => simp [accessor, unit, h]
  | arguments => simp [accessor, delimited, unit, h]
  | nonNull =>
    have hmark : view 0 = .exclMark := hstarts
    simp [accessor, unit, h, hmark]

/-- What begins with a name ends with a token that is no semicolon, or has looked at what comes
    next. -/
private theorem minds_namePrimary (hname : view 0 = .identifier) :
    (namePrimary fun _ => .done true).Minds alive own true view fun sure => sure = true := by
  have hseen : ∀ i < 1, view i ≠ .semiColon := by simp [hname]
  -- The name alone may be the last token but one.
  have hrest : (do
      if (← ahead 1) = .lCurly then
        node .recordLiteral do
          bump
          delimited .record
      else node .nameRef bump : Fragment Unit).unit.Minds alive own true view
        fun sure => sure = true := by
    simp only [unit, minds_bind, minds_ahead, minds_ite]
    refine ⟨by simp, hseen, ?_⟩
    split <;> simp [delimited, unit, hname]
  simp only [namePrimary, minds_bind, minds_ahead, minds_ite]
  refine ⟨by simp, hseen, ?_⟩
  -- A bracket after the name asks for its text, to tell the type of an array.
  split
  · simp only [minds_currentText, minds_bind, minds_pure, minds_ite]
    refine ⟨by simp, fun text => ?_⟩
    split
    · simp [delimited, unit, hname]
    · exact hrest
  · exact hrest

/-- What a member declares, after its modifiers. -/
private theorem minds_declaration (k : Kind) :
    ((match k with
      | .kwFunction => do
        call .fnDecl
        optionally .semiColon
      | .identifier => do
        attrDecl
        optionally .semiColon
      | _ => do
        missing .expectedIdentifier "an attribute or function declaration"
        optionally .semiColon : Fragment Unit) fun _ => .done true).Minds alive own true view
          fun _ => True := by
  split <;> simp [attrDecl, ascription, unit]

end Grammar

namespace Rule

open Grammar Fragment

/-- Where an expression has to be, there is something. -/
@[simp] theorem doomed_expr : expr.script.doomed = true := rfl

variable {view : Nat → Kind} {own : Bool} {post : Bool → Prop}

/-- An item may end with a semicolon, and does not look beyond it. -/
private theorem minds_item : item.script.Minds false own true view fun _ => True := by
  simp only [script, Grammar.item, unit, minds_bind, minds_current]
  generalize view 0 = k
  refine ⟨rfl, ?_⟩
  split <;> simp

/-- The loop over the members of a type ends with a token that is no semicolon, or has looked at
    what comes next. -/
private theorem minds_members :
    members.script.Minds true own true view fun sure => sure = true := by
  simp only [script, Grammar.members, unit, minds_bind, minds_stopped, minds_ite]
  refine ⟨rfl, fun b => ?_⟩
  split
  · simp
  simp only [minds_current]
  generalize view 0 = k
  refine ⟨rfl, ?_⟩
  split <;> simp

/-- The loop over statements ends with a token that is no semicolon, or has looked at what comes
    next. -/
private theorem minds_statements (seen : Bool) :
    (statements seen).script.Minds true own true view fun sure => sure = true := by
  simp only [script, Grammar.statements, Fragment.script, minds_bind, minds_stopped, minds_ite]
  refine ⟨rfl, fun b => ?_⟩
  split
  · simp
  simp only [minds_current]
  generalize view 0 = k
  refine ⟨rfl, ?_⟩
  split <;> simp [recoverStatement]

/-- A statement may end with a semicolon, and does not look beyond it. -/
private theorem minds_statement : statement.script.Minds false own true view fun _ => True := by
  simp only [script, Grammar.statement, unit, minds_bind, minds_current, minds_deeper]
  refine ⟨rfl, ?_⟩
  generalize hk : view 0 = k
  split
  · refine minds_atRecordBody hk fun b => ?_
    cases b <;> simp [exprStmt, unit]
  · simp
  · simp [whileStmt, condition, unit, hk]
  · simp +decide [forStmt, exprStmt, unit]
  · simp [varStmt, missingVariable, unit, hk]
  · simp [returnStmt, unit, hk]
  · simp
    split <;> simp [exprStmt, recoverStatement, unit]

/-- A chain of operators ends with a token that is no semicolon, or has looked at what comes
    next. -/
private theorem minds_chain : chain.script.Minds false true true view fun sure => sure = true := by
  simp [script, Grammar.chain, unary, unit]
  intro view hop
  exact .inl (TokenSet.ne_semiColon hop rfl)

/-- A run of prefix operators ends with a token that is no semicolon, or has looked at what comes
    next. -/
private theorem minds_prefixes (count : Nat) :
    (prefixes count).script.Minds false own true view fun sure => sure = true := by
  simp [script, Grammar.prefixes, prefixOperand, unit]
  intro hop hcount
  exact .inl (TokenSet.ne_semiColon hop rfl)

/-- An operand ends with a token that is no semicolon, or has looked at what comes next. -/
private theorem minds_operand :
    operand.script.Minds false own true view fun sure => sure = true := by
  have hpostfix (view : Nat → Kind) (hop : TokenSet.postfixOps.contains (view 0) = true) :
      ¬ view 0 = .semiColon := TokenSet.ne_semiColon hop rfl
  by_cases hnew : view 0 = .kwNew <;>
    simpa [script, Grammar.operand, Grammar.member, unit, hnew] using hpostfix

/-- The loop over accessors ends with a token that is no semicolon, or has looked at what comes
    next. -/
private theorem minds_accessors (wrapped : Bool) :
    (accessors wrapped).script.Minds false (!wrapped) true view fun sure => sure = true := by
  simp only [script, Grammar.accessors, unit, minds_bind]
  refine minds_accessorHere (by simp) fun a hstarts => ?_
  cases wrapped with
  | true =>
    simp only [if_true, minds_bind]
    exact minds_accessor hstarts fun _ => by simp
  | false =>
    simp only [Bool.false_eq_true, if_false, minds_wrap, unit, minds_bind]
    exact ⟨rfl, minds_accessor hstarts fun _ => by simp⟩

/-- A primary expression ends with a token that is no semicolon, or has looked at what comes
    next. -/
private theorem minds_primary :
    primary.script.Minds false own true view fun sure => sure = true := by
  simp only [script, Grammar.primary, unit, minds_bind, minds_current]
  refine ⟨rfl, ?_⟩
  generalize hk : view 0 = k
  split
  · exact minds_namePrimary hk
  · simp [unit, hk]
  · simp [delimited, unit]
  · simp [delimited, unit]
  · refine minds_atFnLiteral hk fun b => ?_
    cases b <;> simp [unit]
  · simp only [minds_ite, minds_missing, minds_node, unit, minds_bump, minds_done]
    split
    · next hliteral => simpa [hk] using TokenSet.ne_semiColon hliteral rfl
    · trivial

/-- The loop over elements ends with a token that is no semicolon, or has looked at what comes
    next. -/
private theorem minds_elements (form : ListForm) :
    (elements form).script.Minds false own true view fun sure => sure = true := by
  cases form <;> simp [script, Grammar.elements, unit, ListForm.element]

/-- A primary expression with its accessors may end with a semicolon, and does not look beyond
    it. -/
private theorem minds_member : member.script.Minds false own true view fun _ => True := by
  simp only [script, Grammar.typeMember, unit, minds_bind, minds_current, minds_node, minds_done,
    implies_true]
  refine ⟨by simp, ?_⟩
  generalize hk : view 0 = k
  split
  · simp only [minds_bind, minds_bump, minds_optionally, minds_current, hk]
    refine ⟨by simp, ?_⟩
    split <;> exact ⟨by simp, minds_declaration _⟩
  · simp only [minds_bind, minds_bump, minds_optionally, minds_current, hk]
    refine ⟨by simp, ?_⟩
    split <;> exact ⟨by simp, minds_declaration _⟩
  · simp only [minds_bind, minds_current]
    exact ⟨by simp, minds_declaration _⟩

/-- Each rule below the top level minds the end of the text. -/
theorem minds (rule : Rule) (htop : rule.isTop = false) (view : Nat → Kind) :
    rule.script.Minds rule.isInner rule.regroups true view fun sure =>
      rule.isTerminated = false → sure = true := by
  -- One case for each rule below the top level.
  cases rule with
  | program => cases htop
  | imports => cases htop
  | items => cases htop
  | item => simpa using minds_item
  | importDecl =>
    simp +contextual [script, Grammar.importDecl, unit]
    exact fun _ hpath => .inl (TokenSet.ne_semiColon hpath rfl)
  | fnDecl => simp +contextual [script, Grammar.fnDecl, unit]
  | fnTail => simp [script, Grammar.fnTail, delimited, unit]
  | param => simp [script, Grammar.param, ascription, unit]
  | typeDecl => simp [script, Grammar.typeDecl, unit]
  | members => simpa using minds_members
  | member => simpa using minds_member
  | statements seen => simpa using minds_statements seen
  | statement => simpa using minds_statement
  | block => simp [script, Grammar.block, unit, Fragment.script]
  | body => simp [script, Grammar.body, unit]
  | ifStmt terminated =>
    cases terminated <;> simp +contextual [script, Grammar.ifStmt, condition, unit]
  | initializer => simp +contextual [script, Grammar.initializer, unit]
  | expr => simp [script, Grammar.expr, unit]
  | chain => simpa using minds_chain
  | prefixes count => simpa using minds_prefixes count
  | operand => simpa using minds_operand
  | accessors wrapped => simpa using minds_accessors wrapped
  | primary => simpa using minds_primary
  | elements form => simpa using minds_elements form
  | recordProp => simp [script, Grammar.recordProp, unit]
  | typeList => simp [script, Grammar.typeList, unit]
  | unionTail => simp [script, Grammar.unionTail, unit]
  | typeName => simp +contextual [script, Grammar.typeName, typeArgs, unit]
  | typeArgTail => simp [script, Grammar.typeArgTail, unit]
  | discard stops => simp [script, Grammar.discard, unit]
  | skipTo stops => simp [script, Grammar.skipTo, unit]

/-- A rule that reports nothing does the same, whatever follows the text. -/
theorem run_beside {g e : Setting} (hlimit : e.depthLimit = g.depthLimit) (budget : Nat) :
    Pairs (run g budget) (run e budget) := by
  -- Induction on the budget: the rules called run beside their counterparts.
  induction budget with
  | zero =>
    intro rule s t a s' x _ _ _ _ _ _ hrun
    cases hrun
  | succ budget ih =>
    intro rule s t a s' x htop h hleft hseals hwraps hinner hrun hsilent
    -- A rule that is not covered is doomed, and a doomed rule does not end silently.
    have hcovers : x.Covers s := by
      obtain hcovers | hdoomed := hleft
      · exact hcovers
      · refine .inr fun hempty => ?_
        exact Script.not_silent_of_doomed (fun _ _ _ _ => run_extends) hdoomed hempty h.unreported
          hrun hsilent
    have hcautious : Cautious g (run g budget) :=
      ⟨fun _ _ _ _ => run_extends, fun _ _ _ _ => run_filed, fun _ _ _ _ => run_later⟩
    have hmeets : x.Meets rule.regroups true (kindAt s.reading.input) s t :=
      ⟨h, hseals, fun _ => rfl, .inl hcovers, hwraps⟩
    obtain ⟨t', sure, hrun', h', hpost, hsure⟩ := Script.run_beside hlimit ih hcautious rule.script
      (rule.minds htop _) hmeets hinner hrun hsilent
    refine ⟨t', hrun', h', hsure.imp_right fun hfull => ⟨?_, hfull.2⟩⟩
    cases hterminated : rule.isTerminated with
    | true => rfl
    | false => simpa [hfull.1] using hpost hterminated

end Rule

end ScriptTree
