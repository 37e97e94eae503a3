import ScriptTree.Grammar.Declaration
import ScriptTree.Proofs.Running

/-!
# What scripts keep to

Some facts about the rules can be seen without running them.  `Script.Steady` walks through a
script, following the paths on which nothing goes wrong, and checks on the way

* that complaints are errors, and that a warning is about a token that is consumed next;
* that a rule which has consumed nothing yet calls only rules of a lower `Rule.rank`;
* that there is patience left for each lookahead.

It keeps track of two things: whether a token was surely consumed, and how much patience is left at
least.

## Key results

- `Rule.steady`: all rules keep to this
-/

namespace ScriptTree

namespace Rule

/-- Rules by the height at which they stand above the tokens: before it consumes anything, a rule
    calls lower ones only. -/
@[simp] def rank : Rule → Nat
  | typeName | body | block | accessors _ | importDecl | typeDecl | discard _ | skipTo _ => 0
  | unionTail | fnTail | ifStmt _ => 1
  | typeList | primary | fnDecl => 2
  | typeArgTail | param | operand => 3
  | prefixes _ => 4
  | chain => 5
  | expr => 6
  | initializer | recordProp => 7
  | elements _ | member | statement => 8
  | members | statements _ | item => 9
  | items | imports => 10
  | program => 11

/-- Does the rule consume a token whenever nothing goes wrong?  Loops may end at once. -/
@[simp] def consumes : Rule → Bool
  | program | imports | items | members | statements _ | accessors _ | elements _ | unionTail
  | typeArgTail | discard _ | skipTo _ => false
  | _ => true

/-- Patience that is enough for the rule up to where it is restored, and after that. -/
def spends (rule : Rule) : Nat := 8 * (rule.rank + 1)

theorem spends_le (rule : Rule) : rule.spends ≤ fullPatience := by
  cases rule <;> simp [spends, fullPatience]

/-- Lookaheads of a rule that consumes nothing. -/
@[simp] def glances : Rule → Nat
  | program => 8
  | _ => 4

/-- Patience that is left after the rule at least, if there was `patience` before. -/
def left (rule : Rule) (patience : Nat) : Nat :=
  if rule.consumes then fullPatience - rule.spends
  else min (patience - rule.glances) (fullPatience - rule.spends)

/-- A loop leaves what it is given but for its glances, and no more than it leaves later on. -/
private theorem left_le (rule : Rule) (h : rule.consumes = false) (patience : Nat) :
    rule.left patience + rule.glances ≤ max patience rule.glances ∧
      rule.left patience + rule.spends ≤ fullPatience := by
  have hspends := rule.spends_le
  have hleft : rule.left patience =
      min (patience - rule.glances) (fullPatience - rule.spends) := by
    rw [left, h]
    rfl
  omega

end Rule

namespace Script

/-- Does the script consume the current token at once? -/
def isBump : Script → Bool
  | .bump _ => true
  | _ => false

/-- The script of a rule of this rank is in order, if it is run after a token was surely consumed
    (`eaten`) with some patience left, and it ends as `post` demands. -/
def Steady (rank : Nat) :
    Script → (eaten : Bool) → (patience : Nat) → (post : Bool → Nat → Prop) → Prop
  | .done _, eaten, patience, post => post eaten patience
  | .fail _, _, _, _ => True
  | .look _ next, eaten, patience, post =>
    0 < patience ∧ ∀ k, (next k).Steady rank eaten (patience - 1) post
  | .text next, eaten, patience, post => ∀ t, (next t).Steady rank eaten patience post
  | .stopped next, eaten, patience, post => ∀ b, (next b).Steady rank eaten patience post
  | .exhausted next, eaten, patience, post => (next false).Steady rank eaten patience post
  | .bump next, _, _, post => next.Steady rank true fullPatience post
  | .flush next, eaten, patience, post => next.Steady rank eaten patience post
  -- No reading without mistakes gets past this, so nothing is demanded of what follows.
  | .complain x _, _, _, _ => x.problem.severity = .error
  | .remark problem next, eaten, patience, post =>
    problem.severity = .warning ∧ next.isBump = true ∧ next.Steady rank eaten patience post
  | .node _ body next, eaten, patience, post =>
    body.Steady rank eaten patience fun e p => next.Steady rank e p post
  | .group body next, eaten, patience, post =>
    body.Steady rank eaten patience fun e p => next.Steady rank e p post
  | .wrap _ body next, eaten, patience, post =>
    body.Steady rank eaten patience fun e p => next.Steady rank e p post
  -- A level that is entered or left refills the patience.
  | .deeper body next, eaten, _, post =>
    body.Steady rank eaten fullPatience fun e _ => (next true).Steady rank e fullPatience post
  | .enclosed _ _ ifEmpty body next, _, _, post =>
    (∀ problem, ifEmpty = some problem → problem.severity = .error) ∧
      body.Steady rank true fullPatience fun _ p =>
        0 < p ∧ next.Steady rank true fullPatience post
  | .call rule next, eaten, patience, post =>
    (eaten = true ∨ rule.rank < rank) ∧ rule.spends ≤ patience ∧
      ∀ a, (next a).Steady rank (eaten || rule.consumes) (rule.left patience) post

end Script

namespace Fragment

variable {α β : Type} {rank : Nat} {e : Bool} {p : Nat} {post : Bool → Nat → Prop}

/-! ## Steps -/

/-- A script that is done must be where it should end. -/
@[simp] theorem steady_done {answer : Bool} :
    (Script.done answer).Steady rank e p post ↔ post e p := Iff.rfl

/-- Fragments in sequence are followed in sequence. -/
@[simp] theorem steady_bind (m : Fragment α) (f : α → Fragment β) (next : β → Script) :
    ((m >>= f) next).Steady rank e p post ↔
      (m fun v => f v next).Steady rank e p post := Iff.rfl

/-- Handing on a value takes no patience. -/
@[simp] theorem steady_pure (v : α) (next : α → Script) :
    ((pure v : Fragment α) next).Steady rank e p post ↔ (next v).Steady rank e p post := Iff.rfl

/-- The branch that is taken is followed. -/
@[simp] theorem steady_ite (c : Prop) [Decidable c] (m n : Fragment α) (next : α → Script) :
    ((if c then m else n) next).Steady rank e p post ↔
      if c then (m next).Steady rank e p post else (n next).Steady rank e p post := by
  split <;> rfl

/-- A lookahead takes one from the patience. -/
@[simp] theorem steady_ahead (n : Nat) (next : Kind → Script) :
    (ahead n next).Steady rank e p post ↔
      0 < p ∧ ∀ k, (next k).Steady rank e (p - 1) post := Iff.rfl

/-- A look at the current token takes one from the patience. -/
@[simp] theorem steady_current (next : Kind → Script) :
    (current next).Steady rank e p post ↔
      0 < p ∧ ∀ k, (next k).Steady rank e (p - 1) post := Iff.rfl

/-- The text of the current token takes no patience. -/
@[simp] theorem steady_currentText (next : String → Script) :
    (currentText next).Steady rank e p post ↔ ∀ t, (next t).Steady rank e p post := Iff.rfl

/-- Asking for the end takes no patience. -/
@[simp] theorem steady_stopped (next : Bool → Script) :
    (stopped next).Steady rank e p post ↔ ∀ b, (next b).Steady rank e p post := Iff.rfl

/-- A path on which steps have run out is not followed. -/
@[simp] theorem steady_exhausted (next : Bool → Script) :
    (exhausted next).Steady rank e p post ↔ (next false).Steady rank e p post := Iff.rfl

/-- A token that is consumed restores the patience. -/
@[simp] theorem steady_bump (next : Unit → Script) :
    (bump next).Steady rank e p post ↔ (next ()).Steady rank true fullPatience post := Iff.rfl

/-- Flushing takes no patience. -/
@[simp] theorem steady_flush (next : Unit → Script) :
    (flush next).Steady rank e p post ↔ (next ()).Steady rank e p post := Iff.rfl

/-- A complaint is an error, and ends the path. -/
@[simp] theorem steady_complain (problem : Problem) (detail expected : Option String)
    (next : Unit → Script) :
    (complain problem detail expected next).Steady rank e p post ↔
      problem.severity = .error := Iff.rfl

/-- A complaint is an error, and ends the path. -/
@[simp] theorem steady_missing (problem : Problem) (what : String) (next : Unit → Script) :
    (missing problem what next).Steady rank e p post ↔ problem.severity = .error := Iff.rfl

/-- A warning is about the token that is consumed next. -/
@[simp] theorem steady_remark (problem : Problem) (next : Unit → Script) :
    (remark problem next).Steady rank e p post ↔
      problem.severity = .warning ∧ (next ()).isBump = true ∧
        (next ()).Steady rank e p post := Iff.rfl

@[simp] theorem isBump_bind (m : Fragment α) (f : α → Fragment β) (next : β → Script) :
    ((m >>= f) next).isBump = (m fun v => f v next).isBump := rfl

@[simp] theorem isBump_bump (next : Unit → Script) : (bump next).isBump = true := rfl

/-- A node is followed as its body. -/
@[simp] theorem steady_node (k : Kind) (body : Fragment Unit) (next : Unit → Script) :
    (node k body next).Steady rank e p post ↔
      body.unit.Steady rank e p fun e p => (next ()).Steady rank e p post := Iff.rfl

/-- A group is followed as its body. -/
@[simp] theorem steady_group (body : Fragment Unit) (next : Unit → Script) :
    (group body next).Steady rank e p post ↔
      body.unit.Steady rank e p fun e p => (next ()).Steady rank e p post := Iff.rfl

/-- What wraps is followed as its body. -/
@[simp] theorem steady_wrap (k : Kind) (body : Fragment Unit) (next : Unit → Script) :
    (wrap k body next).Steady rank e p post ↔
      body.unit.Steady rank e p fun e p => (next ()).Steady rank e p post := Iff.rfl

/-- A level that is granted restores the patience, when it is entered and when it is left. -/
@[simp] theorem steady_deeper (body : Fragment Unit) (next : Bool → Script) :
    (deeper body next).Steady rank e p post ↔
      body.unit.Steady rank e fullPatience fun e _ =>
        (next true).Steady rank e fullPatience post := Iff.rfl

/-- The opener was surely consumed, and the look for the closer takes patience. -/
@[simp] theorem steady_enclosed (d : Delimiter) (construct : String) (body : Fragment Unit)
    (next : Unit → Script) :
    (enclosed d construct body next).Steady rank e p post ↔
      body.unit.Steady rank true fullPatience fun _ p =>
        0 < p ∧ (next ()).Steady rank true fullPatience post := by
  simp [enclosed, Script.Steady]

/-- As `steady_enclosed`, and the complaint about an empty block is an error. -/
@[simp] theorem steady_enclosedNonempty (d : Delimiter) (construct : String) (ifEmpty : Problem)
    (body : Fragment Bool) (next : Unit → Script) :
    (enclosedNonempty d construct ifEmpty body next).Steady rank e p post ↔
      ifEmpty.severity = .error ∧ body.script.Steady rank true fullPatience fun _ p =>
        0 < p ∧ (next ()).Steady rank true fullPatience post := by
  simp [enclosedNonempty, Script.Steady]

/-- A rule is called below the rank, or after a token was consumed. -/
@[simp] theorem steady_ask (rule : Rule) (next : Bool → Script) :
    (ask rule next).Steady rank e p post ↔
      (e = true ∨ rule.rank < rank) ∧ rule.spends ≤ p ∧
        ∀ a, (next a).Steady rank (e || rule.consumes) (rule.left p) post := Iff.rfl

/-- A rule is called below the rank, or after a token was consumed. -/
@[simp] theorem steady_call (rule : Rule) (next : Unit → Script) :
    (call rule next).Steady rank e p post ↔
      (e = true ∨ rule.rank < rank) ∧ rule.spends ≤ p ∧
        (next ()).Steady rank (e || rule.consumes) (rule.left p) post := by
  simp [call, Script.Steady]

/-! ## Combinations -/

/-- The current token may be of a kind or not. -/
theorem forall_beq_iff {P : Bool → Prop} (k : Kind) :
    (∀ k' : Kind, P (k' == k)) ↔ P true ∧ P false := by
  -- The predicate holds of the kind and of every other one.
  constructor
  · intro h
    obtain ⟨k', hne⟩ : ∃ k', k' ≠ k := by
      by_cases hk : k = .dot
      · exact ⟨.comma, by rw [hk]; decide⟩
      · exact ⟨.dot, Ne.symm hk⟩
    have hfalse := h k'
    rw [beq_eq_false_iff_ne.mpr hne] at hfalse
    exact ⟨by simpa using h k, hfalse⟩
  · rintro ⟨htrue, hfalse⟩ k'
    cases hk : k' == k with
    | true => exact htrue
    | false => exact hfalse

/-- A test for a kind takes one from the patience. -/
@[simp] theorem steady_isAt (k : Kind) (next : Bool → Script) :
    (isAt k next).Steady rank e p post ↔
      0 < p ∧ (next true).Steady rank e (p - 1) post ∧ (next false).Steady rank e (p - 1) post :=
  and_congr_right fun _ => forall_beq_iff (P := fun b => (next b).Steady rank e (p - 1) post) k

/-- A test for a set takes one from the patience. -/
@[simp] theorem steady_isAtAny (set : TokenSet) (next : Bool → Script) :
    (isAtAny set next).Steady rank e p post ↔
      0 < p ∧ ∀ k, (next (set.contains k)).Steady rank e (p - 1) post := Iff.rfl

/-- Either a token was consumed, or one look was taken. -/
@[simp] theorem steady_eat (k : Kind) (next : Bool → Script) :
    (eat k next).Steady rank e p post ↔
      0 < p ∧ (next true).Steady rank true fullPatience post ∧
        (next false).Steady rank e (p - 1) post := by
  simp [eat]

/-- Either a token was consumed, or one look was taken. -/
@[simp] theorem steady_optionally (k : Kind) (next : Unit → Script) :
    (optionally k next).Steady rank e p post ↔
      0 < p ∧ (next ()).Steady rank true fullPatience post ∧
        (next ()).Steady rank e (p - 1) post := by
  simp [optionally]

/-- On a path without complaints the token is there. -/
@[simp] theorem steady_expect (k : Kind) (what : String) (next : Bool → Script) :
    (expect k what next).Steady rank e p post ↔
      0 < p ∧ (next true).Steady rank true fullPatience post := by
  simp [expect, Problem.severity]

/-- On a path without complaints the token is there. -/
@[simp] theorem steady_require (k : Kind) (what : String) (next : Unit → Script) :
    (require k what next).Steady rank e p post ↔
      0 < p ∧ (next ()).Steady rank true fullPatience post := by
  simp [require]

/-- On a path without complaints the name is there. -/
@[simp] theorem steady_identifier (what : String) (next : Unit → Script) :
    (identifier what next).Steady rank e p post ↔
      0 < p ∧ (next ()).Steady rank true fullPatience post := by
  simp [identifier, Problem.severity]

/-- The assertion about where a rule begins takes one look. -/
@[simp] theorem steady_entered (k : Kind) (next : Unit → Script) :
    (entered k next).Steady rank e p post ↔
      0 < p ∧ (next ()).Steady rank e (p - 1) post := by
  show (0 < p ∧ ∀ found, (if found = k then next () else .fail _ : Script).Steady rank e (p - 1)
    post) ↔ _
  refine and_congr_right fun _ => ?_
  constructor
  · intro h
    simpa using h k
  · intro h found
    split
    · exact h
    · trivial

/-- Nothing is set aside without an error, which ends the path. -/
@[simp] theorem steady_setAside (problem : Problem) (what : String) (stops : TokenSet)
    (rest : Fragment Unit) (next : Unit → Script) :
    (setAside problem what stops rest next).Steady rank e p post ↔ problem.severity = .error :=
  Iff.rfl

end Fragment

/-! ## Parts of rules -/

namespace Grammar

open Fragment

variable {rank : Nat} {e : Bool} {p : Nat} {post : Bool → Nat → Prop}

/-- The name behind a dot surely consumes a token. -/
@[simp] theorem steady_memberName (after : String) (next : Unit → Script) :
    (memberName after next).Steady rank e p post ↔
      0 < p ∧ (next ()).Steady rank true fullPatience post := by
  simp only [memberName, steady_bind, steady_isAtAny, steady_ite, steady_bump, steady_missing]
  refine and_congr_right fun _ => ?_
  constructor
  · intro h
    exact h .identifier
  · intro h k
    split
    · exact h
    · rfl

/-- The recovery from what begins no statement complains at once, so nothing is demanded of what
    follows. -/
@[simp] theorem steady_recoverStatement (next : Unit → Script) :
    (recoverStatement next).Steady rank e p post := rfl

/-- Without its colon a type is missing, so only what follows the colon matters. -/
@[simp] theorem steady_ascription (what : String) (next : Unit → Script) :
    (ascription what next).Steady rank e p post ↔
      0 < p ∧ (next ()).Steady rank true (Rule.typeList.left fullPatience) post := by
  simp [ascription, Rule.spends, fullPatience]

/-- A condition in parentheses surely consumes a token. -/
@[simp] theorem steady_condition (keyword : String) (next : Unit → Script) :
    (condition keyword next).Steady rank e p post ↔
      0 < p ∧ (next ()).Steady rank true fullPatience post := by
  simp [condition, Rule.spends, Rule.left, fullPatience]

/-- A list in delimiters surely consumes a token. -/
@[simp] theorem steady_delimited (form : ListForm) (next : Unit → Script) :
    (delimited form next).Steady rank e p post ↔
      0 < p ∧ (next ()).Steady rank true fullPatience post := by
  simp [delimited, Fragment.unit, Rule.spends, Rule.left, fullPatience]

/-- The recovery from a missing variable complains at once, so nothing is demanded of what
    follows. -/
@[simp] theorem steady_missingVariable (next : Unit → Script) :
    (missingVariable next).Steady rank e p post ↔ 0 < p := by
  simp [missingVariable, Fragment.unit, Problem.severity]

/-- An expression as a statement leaves what an expression leaves, unless it eats a semicolon. -/
private theorem steady_exprStmt (terminated : Bool) {next : Unit → Script}
    (hdown : Rule.expr.rank < rank)
    (hp : Rule.expr.spends ≤ p) (h : ∀ q, 199 ≤ q → (next ()).Steady rank true q post) :
    (exprStmt terminated next).Steady rank e p post := by
  have hate : (e || Rule.expr.consumes) = true := Bool.or_true e
  have hleft : Rule.expr.left p = 200 := rfl
  simp only [exprStmt, steady_bind, steady_node, Fragment.unit, steady_call, steady_ite,
    steady_pure, hate, hleft]
  refine ⟨.inr hdown, hp, ?_⟩
  split
  · rw [steady_optionally]
    exact ⟨by decide, h _ (by decide), h _ (by decide)⟩
  · exact h _ (by decide)

/-- An operand that is missing is reported, unless there is no more fuel. -/
private theorem steady_prefixOperand {next : Unit → Script} (hdown : Rule.operand.rank < rank)
    (hp : Rule.operand.spends < p)
    (h : (next ()).Steady rank true (Rule.operand.left (p - 1)) post) :
    (prefixOperand next).Steady rank e p post := by
  simp only [prefixOperand, steady_bind, steady_isAtAny, steady_ite, steady_call, steady_exhausted]
  refine ⟨by omega, fun k => ?_⟩
  split
  · have hate : (e || Rule.operand.consumes) = true := Bool.or_true e
    rw [hate]
    exact ⟨.inr hdown, by omega, h⟩
  · rfl

/-- An accessor surely consumes a token. -/
private theorem steady_accessor (a : Accessor) {next : Unit → Script} (hp : 0 < p)
    (h : (next ()).Steady rank true fullPatience post) :
    (accessor a next).Steady rank e p post := by
  have hindex : 0 < Rule.expr.left 256 := by decide
  cases a with
  | field => simpa [accessor, Fragment.unit, fullPatience] using h
  | static => simpa [accessor, Fragment.unit, fullPatience] using h
  | index => simpa [accessor, Fragment.unit, Rule.spends, fullPatience, hindex] using h
  | arguments => simpa [accessor, Fragment.unit, hp] using h
  | nonNull => simpa [accessor, Fragment.unit] using h

/-- Looking for an accessor takes two lookaheads at most. -/
private theorem steady_accessorHere {next : Option Accessor → Script} (hp : 2 ≤ p)
    (h : ∀ a q, p ≤ q + 2 → (next a).Steady rank e q post) :
    (accessorHere next).Steady rank e p post := by
  simp only [accessorHere, steady_bind, steady_current]
  refine ⟨by omega, fun k => ?_⟩
  split
  case h_2 =>
    simp only [steady_bind, steady_ahead, steady_ite, steady_pure]
    refine ⟨by omega, fun k => ?_⟩
    split
    · exact h _ _ (by omega)
    · exact h _ _ (by omega)
  all_goals exact h _ _ (by omega)

/-- Telling a function from an expression in parentheses takes three lookaheads at most. -/
private theorem steady_atFnLiteral {next : Bool → Script} (hp : 3 ≤ p)
    (h : ∀ b q, p ≤ q + 3 → (next b).Steady rank e q post) :
    (atFnLiteral next).Steady rank e p post := by
  simp only [atFnLiteral, steady_bind, steady_ahead]
  refine ⟨by omega, fun k => ?_⟩
  split
  case h_2 =>
    simp only [steady_bind, steady_ahead, steady_ite, steady_pure]
    refine ⟨by omega, fun k => ?_⟩
    split
    · exact ⟨by omega, fun _ => h _ _ (by omega)⟩
    · exact h _ _ (by omega)
  all_goals exact h _ _ (by omega)

/-- Telling a record from a block takes three lookaheads at most. -/
private theorem steady_atRecordBody {next : Bool → Script} (hp : 3 ≤ p)
    (h : ∀ b q, p ≤ q + 3 → (next b).Steady rank e q post) :
    (atRecordBody next).Steady rank e p post := by
  simp only [atRecordBody, steady_bind, steady_ahead, steady_ite, steady_pure]
  refine ⟨by omega, fun k => ?_⟩
  split
  · refine ⟨by omega, fun k => ?_⟩
    split
    · exact ⟨by omega, fun _ => h _ _ (by omega)⟩
    · exact h _ _ (by omega)
  · exact h _ _ (by omega)

/-- A name, whatever literal it begins, is consumed at the third lookahead. -/
private theorem steady_namePrimary {next : Unit → Script} (hp : 3 ≤ p)
    (h : ∀ q, 240 ≤ q → (next ()).Steady rank true q post) :
    (namePrimary next).Steady rank e p post := by
  have hfull := h fullPatience (by decide)
  -- A bracket after the name of an array type.
  have hscalar (q : Nat) : (node .arrayLiteral (do
      bump
      delimited .array) next).Steady rank e q post := by
    simpa [Fragment.unit, fullPatience] using hfull
  -- A brace after the name, or the name alone.
  have hother (q : Nat) (hq : 0 < q) : 0 < q ∧ ∀ k, if k = Kind.lCurly then
      (node .recordLiteral (do
        bump
        delimited .record) next).Steady rank e (q - 1) post
      else (node .nameRef bump next).Steady rank e (q - 1) post := by
    refine ⟨hq, fun k => ?_⟩
    split
    · simpa [Fragment.unit, fullPatience] using hfull
    · exact hfull
  simp only [namePrimary, steady_bind, steady_ahead, steady_ite, steady_currentText, steady_pure,
    Bool.false_eq_true, if_false]
  refine ⟨by omega, fun k => ?_⟩
  -- The second look settles which of them it is.
  split
  · intro name
    split
    · exact hscalar _
    · exact hother _ (by omega)
  · exact hother _ (by omega)

/-- What a member declares, after its modifiers. -/
private theorem steady_declaration (k : Kind) {post : Bool → Nat → Prop} :
    32 ≤ p → (∀ q, 184 ≤ q → post true q) →
      ((match k with
        | .kwFunction => do
          call .fnDecl
          optionally .semiColon
        | .identifier => do
          attrDecl
          optionally .semiColon
        | _ => do
          missing .expectedIdentifier "an attribute or function declaration"
          optionally .semiColon : Fragment Unit) fun _ => .done true).Steady 8 e p post := by
  intro hp hpost
  -- A function and a type spend alike, and an attribute spends the most.
  split
  · simp [Rule.spends, Rule.left, fullPatience, hpost]
    omega
  · simp [attrDecl, Fragment.unit, Rule.spends, Rule.left, fullPatience, hpost]
  · rfl

end Grammar

/-! ## The rules

One lemma for each rule. -/

namespace Rule

open Fragment

/-- The script of a rule is in order, and keeps what `Rule.consumes` and `Rule.left` promise. -/
def IsSteady (rule : Rule) : Prop :=
  ∀ p, rule.spends ≤ p → p ≤ fullPatience → rule.script.Steady rule.rank false p fun e q =>
    (rule.consumes = true → e = true) ∧ rule.left p ≤ q

/-- All that matters about what a loop leaves is that it is enough for a few more glances. -/
private theorem IsSteady.of_loop {rule : Rule} (hloop : rule.consumes = false)
    (h : ∀ p l, rule.spends ≤ p → p ≤ fullPatience → l + rule.glances ≤ max p rule.glances →
      l + rule.spends ≤ fullPatience →
      rule.script.Steady rule.rank false p fun _ q => l ≤ q) : rule.IsSteady := by
  intro p hspends hp
  obtain ⟨hl, hl'⟩ := rule.left_le hloop p
  have hsteady := h p (rule.left p) hspends hp hl hl'
  simpa only [hloop, Bool.false_eq_true, false_imp_iff, true_and] using hsteady

private theorem steady_program : IsSteady .program := by
  intro p h hp
  simp only [spends, rank] at h
  simp [script, Grammar.program, Fragment.unit, spends, left, fullPatience]
  omega

private theorem steady_imports : IsSteady .imports := by
  refine .of_loop rfl fun p l h hp hl hl' => ?_
  simp only [spends, rank, glances, fullPatience] at h hp hl hl'
  simp [script, Grammar.imports, Fragment.unit, spends, left, fullPatience]
  omega

private theorem steady_items : IsSteady .items := by
  refine .of_loop rfl fun p l h hp hl hl' => ?_
  simp only [spends, rank, glances, fullPatience] at h hp hl hl'
  simp [script, Grammar.items, Fragment.unit, spends, left, fullPatience, Problem.severity]
  omega

private theorem steady_item : IsSteady .item := by
  intro p h hp
  simp only [spends, rank] at h
  simp only [script, Grammar.item, Fragment.unit, steady_bind, steady_current]
  refine ⟨by omega, fun k => ?_⟩
  split <;> simp [spends, left, fullPatience, Problem.severity] <;> omega

private theorem steady_importDecl : IsSteady .importDecl := by
  intro p h hp
  simp only [spends, rank] at h
  simp [script, Grammar.importDecl, Fragment.unit, spends, left, fullPatience, Problem.severity]
  omega

private theorem steady_fnDecl : IsSteady .fnDecl := by
  intro p h hp
  simp only [spends, rank] at h
  simp [script, Grammar.fnDecl, Fragment.unit, spends, left, fullPatience]
  omega

private theorem steady_fnTail : IsSteady .fnTail := by
  intro p h hp
  simp only [spends, rank] at h
  simp [script, Grammar.fnTail, Fragment.unit, spends, left, fullPatience]
  omega

private theorem steady_param : IsSteady .param := by
  intro p h hp
  simp [script, Grammar.param, Fragment.unit, spends, left, fullPatience]

private theorem steady_typeDecl : IsSteady .typeDecl := by
  intro p h hp
  simp only [spends, rank] at h
  simp [script, Grammar.typeDecl, Fragment.unit, spends, left, fullPatience]
  omega

private theorem steady_members : IsSteady .members := by
  refine .of_loop rfl fun p l h hp hl hl' => ?_
  simp only [spends, rank, glances, fullPatience] at h hp hl hl'
  simp only [script, Grammar.members, Fragment.unit, steady_bind, steady_stopped, steady_ite,
    steady_pure, steady_done, steady_current]
  intro stopped
  split
  · omega
  refine ⟨by omega, fun k => ?_⟩
  split <;> simp [spends, left, fullPatience, Problem.severity] <;> omega

private theorem steady_member : IsSteady .member := by
  intro p h hp
  simp only [spends, rank] at h
  simp only [script, Grammar.typeMember, Fragment.unit, steady_bind, steady_node, steady_current]
  have hpost (q : Nat) (hq : 184 ≤ q) :
      (member.consumes = true → true = true) ∧ member.left p ≤ q :=
    ⟨fun _ => rfl, hq⟩
  refine ⟨by omega, fun k => ?_⟩
  -- Only behind a modifier is there more than a call to spend for.
  split
  case h_3 => exact ⟨by omega, fun k => Grammar.steady_declaration k (by omega) hpost⟩
  all_goals
    simp only [steady_bind, steady_bump, steady_optionally, steady_current]
    exact ⟨by decide, ⟨by decide, fun k => Grammar.steady_declaration k (by decide) hpost⟩,
      by decide, fun k => Grammar.steady_declaration k (by decide) hpost⟩

private theorem steady_statements (seen : Bool) : IsSteady (.statements seen) := by
  refine .of_loop rfl fun p l h hp hl hl' => ?_
  simp only [spends, rank, glances, fullPatience] at h hp hl hl'
  simp only [script, Grammar.statements, Fragment.script, steady_bind, steady_stopped, steady_ite,
    steady_pure, steady_done, steady_current]
  intro stopped
  split
  · omega
  refine ⟨by omega, fun k => ?_⟩
  split <;> simp [spends, left, fullPatience, Problem.severity] <;> omega

private theorem steady_statement : IsSteady .statement := by
  intro p h hp
  simp only [script, Grammar.statement, Fragment.unit, steady_bind, steady_deeper, steady_current]
  refine ⟨by decide, fun k => ?_⟩
  -- A statement may start with an expression, in two of the branches.
  have hexpr (q : Nat) (hq : expr.spends ≤ q) : (Grammar.exprStmt true fun _ => .done true).Steady
      statement.rank false q fun e _ => (statement.consumes = true → e = true) ∧
        statement.left p ≤ fullPatience := by
    refine Grammar.steady_exprStmt true (by decide) hq fun q _ => ?_
    simp [left]
  split
  case h_1 =>
    refine Grammar.steady_atRecordBody (by decide) fun b q hq => ?_
    cases b with
    | true => exact hexpr q (by simp [spends, fullPatience] at hq ⊢; omega)
    | false => simp [spends, left, fullPatience] at hq ⊢; omega
  case h_7 =>
    rw [steady_ite]
    split
    · exact hexpr _ (by decide)
    · simp
  all_goals
    simp [Grammar.whileStmt, Grammar.forStmt, Grammar.varStmt, Grammar.returnStmt,
      Grammar.exprStmt, Fragment.unit, spends, left, fullPatience, Problem.severity]

private theorem steady_block : IsSteady .block := by
  intro p h hp
  simp only [spends, rank] at h
  simp [script, Grammar.block, Fragment.unit, Fragment.script, spends, left, fullPatience,
    Problem.severity]
  omega

private theorem steady_body : IsSteady .body := by
  intro p h hp
  simp only [spends, rank] at h
  simp [script, Grammar.body, Fragment.unit, spends, left, fullPatience]
  omega

private theorem steady_ifStmt (terminated : Bool) : IsSteady (.ifStmt terminated) := by
  intro p h hp
  simp only [spends, rank] at h
  simp [script, Grammar.ifStmt, Fragment.unit, spends, left, fullPatience]
  omega

private theorem steady_initializer : IsSteady .initializer := by
  intro p h hp
  simp only [spends, rank] at h
  simp [script, Grammar.initializer, Fragment.unit, spends, left, fullPatience]
  omega

private theorem steady_expr : IsSteady .expr := by
  intro p h hp
  simp only [spends, rank] at h
  simp [script, Grammar.expr, Fragment.unit, spends, left, fullPatience, Problem.severity]
  omega

private theorem steady_chain : IsSteady .chain := by
  intro p h hp
  simp only [spends, rank] at h
  simp only [script, Grammar.chain, Grammar.unary, Fragment.unit, steady_bind, steady_isAtAny,
    steady_ite, steady_call]
  refine ⟨by omega, fun k => ?_⟩
  split <;> simp [Fragment.unit, spends, left, fullPatience, Problem.severity] <;> omega

private theorem steady_prefixes (count : Nat) : IsSteady (.prefixes count) := by
  intro p h hp
  have hdown : operand.rank < (prefixes count).rank := by
    show 3 < 4
    decide
  simp only [spends, rank] at h
  simp only [script, Grammar.prefixes, Fragment.unit, steady_bind, steady_isAtAny, steady_ite]
  refine ⟨by omega, fun k => ?_⟩
  split
  · simp [Fragment.unit, spends, left, fullPatience, Problem.severity]
  · refine Grammar.steady_prefixOperand hdown (by simp only [spends, rank]; omega) ?_
    simp [spends, left, fullPatience]

private theorem steady_operand : IsSteady .operand := by
  intro p h hp
  simp only [spends, rank] at h
  simp [script, Grammar.operand, Grammar.member, Fragment.unit, spends, left, fullPatience]
  omega

private theorem steady_accessors (wrapped : Bool) : IsSteady (.accessors wrapped) := by
  refine .of_loop rfl fun p l h hp hl hl' => ?_
  simp only [spends, rank, glances, fullPatience] at h hp hl hl'
  -- An accessor consumes, so the patience is refilled for the next.
  have hmore (a : Grammar.Accessor) (q : Nat) (hq : 0 < q) :
      (Grammar.accessor a fun _ => Fragment.call (.accessors true) fun _ => .done true).Steady
        0 false q fun _ q => l ≤ q := by
    refine Grammar.steady_accessor a hq ?_
    simp [spends, left, fullPatience]
    omega
  simp only [script, Grammar.accessors, Fragment.unit, steady_bind]
  refine Grammar.steady_accessorHere (by omega) fun a q hq => ?_
  cases a with
  | none =>
    show l ≤ q
    omega
  | some a =>
    cases wrapped with
    | true => exact hmore a q (by omega)
    | false => exact hmore a q (by omega)

private theorem steady_primary : IsSteady .primary := by
  intro p h hp
  simp only [spends, rank] at h
  simp only [script, Grammar.primary, Fragment.unit, steady_bind, steady_current]
  refine ⟨by omega, fun k => ?_⟩
  -- A name and a parenthesis look further ahead than the rest.
  split
  case h_1 =>
    refine Grammar.steady_namePrimary (by omega) fun q hq => ?_
    simp [spends, left, fullPatience]
    omega
  case h_5 =>
    rw [steady_bind]
    refine Grammar.steady_atFnLiteral (by omega) fun b q hq => ?_
    cases b <;> simp [Fragment.unit, spends, left, fullPatience]
    omega
  all_goals
    simp [Fragment.unit, spends, left, fullPatience, Problem.severity]
  all_goals omega

private theorem steady_elements (form : ListForm) : IsSteady (.elements form) := by
  refine .of_loop rfl fun p l h hp hl hl' => ?_
  simp only [spends, rank, glances, fullPatience] at h hp hl hl'
  simp only [script, Grammar.elements, Fragment.unit, steady_bind, steady_stopped, steady_ite,
    steady_pure, steady_done, steady_current]
  intro stopped
  split
  · omega
  refine ⟨by omega, fun k => ?_⟩
  -- An element consumes, and so does what is set aside.
  split
  · omega
  split
  · cases form <;> simp [ListForm.element, spends, left, fullPatience]
    all_goals
      refine ⟨by omega, by omega, fun k => ?_⟩
      split <;> omega
  · cases form <;> simp [ListForm.problem, Problem.severity] <;> omega

private theorem steady_recordProp : IsSteady .recordProp := by
  intro p h hp
  simp [script, Grammar.recordProp, Fragment.unit, spends, left, fullPatience]

private theorem steady_typeList : IsSteady .typeList := by
  intro p h hp
  simp only [spends, rank] at h
  simp [script, Grammar.typeList, Fragment.unit, spends, left, fullPatience]
  omega

private theorem steady_unionTail : IsSteady .unionTail := by
  refine .of_loop rfl fun p l h hp hl hl' => ?_
  simp only [spends, rank, glances, fullPatience] at h hp hl hl'
  simp [script, Grammar.unionTail, Fragment.unit, spends, left, fullPatience]
  omega

private theorem steady_typeName : IsSteady .typeName := by
  intro p h hp
  simp only [spends, rank] at h
  simp [script, Grammar.typeName, Grammar.typeArgs, Fragment.unit, spends, left, fullPatience,
    Problem.severity]
  omega

private theorem steady_typeArgTail : IsSteady .typeArgTail := by
  refine .of_loop rfl fun p l h hp hl hl' => ?_
  simp only [spends, rank, glances, fullPatience] at h hp hl hl'
  simp [script, Grammar.typeArgTail, Fragment.unit, spends, left, fullPatience]
  omega

private theorem steady_discard (stops : TokenSet) : IsSteady (.discard stops) := by
  refine .of_loop rfl fun p l h hp hl hl' => ?_
  simp only [spends, rank, glances, fullPatience] at h hp hl hl'
  simp only [script, Grammar.discard, Fragment.unit, steady_bind, steady_stopped, steady_ite,
    steady_pure, steady_done, steady_isAtAny]
  intro stopped
  split
  · omega
  refine ⟨by omega, fun k => ?_⟩
  split
  · omega
  · simp [spends, left, fullPatience]
    omega

private theorem steady_skipTo (stops : TokenSet) : IsSteady (.skipTo stops) := by
  refine .of_loop rfl fun p l h hp hl hl' => ?_
  simp only [spends, rank, glances, fullPatience] at h hp hl hl'
  simp only [script, Grammar.skipTo, Fragment.unit, steady_bind, steady_isAtAny, steady_ite,
    steady_pure, steady_done, steady_stopped]
  refine ⟨by omega, fun k => ?_⟩
  split
  · omega
  intro stopped
  split
  · omega
  · simp [spends, left, fullPatience]
    omega

/-- The script of a rule is in order, and keeps what `Rule.consumes` and `Rule.left` promise. -/
theorem steady (rule : Rule) {p : Nat} (h : rule.spends ≤ p) (hp : p ≤ fullPatience) :
    rule.script.Steady rule.rank false p fun e q =>
      (rule.consumes = true → e = true) ∧ rule.left p ≤ q := by
  have hsteady : rule.IsSteady := by
    -- One lemma for each rule.
    cases rule with
    | program => exact steady_program
    | imports => exact steady_imports
    | items => exact steady_items
    | item => exact steady_item
    | importDecl => exact steady_importDecl
    | fnDecl => exact steady_fnDecl
    | fnTail => exact steady_fnTail
    | param => exact steady_param
    | typeDecl => exact steady_typeDecl
    | members => exact steady_members
    | member => exact steady_member
    | statements seen => exact steady_statements seen
    | statement => exact steady_statement
    | block => exact steady_block
    | body => exact steady_body
    | ifStmt terminated => exact steady_ifStmt terminated
    | initializer => exact steady_initializer
    | expr => exact steady_expr
    | chain => exact steady_chain
    | prefixes count => exact steady_prefixes count
    | operand => exact steady_operand
    | accessors wrapped => exact steady_accessors wrapped
    | primary => exact steady_primary
    | elements form => exact steady_elements form
    | recordProp => exact steady_recordProp
    | typeList => exact steady_typeList
    | unionTail => exact steady_unionTail
    | typeName => exact steady_typeName
    | typeArgTail => exact steady_typeArgTail
    | discard stops => exact steady_discard stops
    | skipTo stops => exact steady_skipTo stops
  exact hsteady p h hp

end Rule

end ScriptTree
