import ScriptTree.Proofs.Complaints

/-!
# What rules set aside

A rule that meets a token it has no use for makes an error node of it, and of what follows up to
some boundary.  `Script.Accounts` walks through a script and checks that each error node begins with
a significant token about which something was complained: the current token is seen before the node
is opened, it is complained about there or inside, and then it is consumed at once.  Up to its
boundary the node takes nothing but tokens.

It also checks that a literal is a single token, since that is seen in the same way.

## Key results

- `Rule.accounts`: all rules keep to this
-/

namespace ScriptTree

/-- What is known of the current token. -/
structure Sight where
  /-- Its kind, if it was looked at; then nothing in front of it is left to be skipped. -/
  kind : Option Kind
  /-- There is a token. -/
  going : Bool
  /-- There was a complaint about it, if there is one. -/
  blamed : Bool

namespace Sight

/-- Nothing is known. -/
def blank : Sight := ⟨none, false, false⟩

/-- After a lookahead. -/
def see (v : Sight) (n : Nat) (k : Kind) : Sight := if n = 0 then { v with kind := some k } else v

/-- After it was asked whether the parse came to its end. -/
def ask (v : Sight) (stopped : Bool) : Sight := if stopped then v else { v with going := true }

/-- After a complaint. -/
def blame (v : Sight) : Sight := { v with blamed := true }

/-- Nothing is known from one sight that is not known from the other. -/
structure Le (v v' : Sight) : Prop where
  kind : ∀ k, v.kind = some k → v'.kind = some k
  going : v.going = true → v'.going = true
  blamed : v.blamed = true → v'.blamed = true

variable {v v' : Sight}

/-- Nothing is known in a blank sight that is not known in any other. -/
private theorem blank_le (v : Sight) : blank.Le v := ⟨nofun, nofun, nofun⟩

/-- A token that has been seen has been seen by who knows more. -/
theorem Le.isSome (h : v.Le v') (hv : v.kind.isSome = true) : v'.kind.isSome = true := by
  obtain ⟨k, hk⟩ := Option.isSome_iff_exists.mp hv
  rw [h.kind k hk]
  rfl

/-- What more was known is still known after a lookahead. -/
theorem Le.see (h : v.Le v') (n : Nat) (k : Kind) : (v.see n k).Le (v'.see n k) := by
  unfold Sight.see
  split
  · exact ⟨fun _ => id, h.going, h.blamed⟩
  · exact h

/-- What more was known is still known after asking for the end. -/
theorem Le.ask (h : v.Le v') (b : Bool) : (v.ask b).Le (v'.ask b) := by
  cases b with
  | true => exact h
  | false => exact ⟨h.kind, fun _ => rfl, h.blamed⟩

/-- What more was known is still known after a complaint. -/
theorem Le.blame (h : v.Le v') : v.blame.Le v'.blame := ⟨h.kind, h.going, fun _ => rfl⟩

end Sight

/-- The rule does nothing but consume tokens. -/
def Rule.sweeps : Rule → Bool
  | discard _ | skipTo _ => true
  | _ => false

namespace Script

/-- The script does nothing but look and consume tokens. -/
def Sweeps : Script → Prop
  | .done _ | .fail _ => True
  | .look _ next => ∀ k, (next k).Sweeps
  | .stopped next => ∀ b, (next b).Sweeps
  | .bump next => next.Sweeps
  | .call rule next => rule.sweeps = true ∧ ∀ a, (next a).Sweeps
  | _ => False

/-- The script consumes the current token after a complaint about it, and then sweeps. -/
def Takes : Script → Sight → Prop
  | .complain _ next, v => next.Takes v.blame
  | .bump next, v => v.blamed = true ∧ next.Sweeps
  -- The set is tested first, so the rule goes on only if the token is not in it.
  | .call (.skipTo stops) next, v =>
    v.blamed = true ∧ v.going = true ∧ (∃ k, v.kind = some k ∧ stops.contains k = false) ∧
      ∀ a, (next a).Sweeps
  | _, _ => False

/-- Each error node begins with a token that is complained about, and literals are single tokens. -/
def Accounts : Script → Sight → Prop
  | .done _, _ | .fail _, _ => True
  | .look n next, v => ∀ k, (next k).Accounts (v.see n k)
  | .text next, v => ∀ t, (next t).Accounts v
  | .stopped next, v => ∀ b, (next b).Accounts (v.ask b)
  | .exhausted next, v => ∀ b, (next b).Accounts v
  | .bump next, _ => next.Accounts .blank
  | .flush next, v => next.Accounts v
  | .complain x next, v => x.problem.isComplaint = true ∧ next.Accounts v.blame
  -- A remark is not an error, so the token may not be set aside after it.
  | .remark _ next, v => next.isBump = true ∧ next.Accounts v
  | .node kind body next, v =>
    (kind = .error → v.kind.isSome = true ∧ body.Takes v) ∧
      (kind = .literal → v.kind.isSome = true ∧ body = .bump (.done true)) ∧
        body.Accounts v ∧ next.Accounts .blank
  | .group body next, v => body.Accounts v ∧ next.Accounts .blank
  | .wrap kind body next, v =>
    kind ≠ .error ∧ kind ≠ .literal ∧ body.Accounts v ∧ next.Accounts .blank
  -- A level that is refused ends the parse.
  | .deeper body next, v => body.Accounts v ∧ (next true).Accounts .blank
  | .enclosed _ _ _ body next, _ => body.Accounts .blank ∧ next.Accounts .blank
  | .call _ next, _ => ∀ a, (next a).Accounts .blank

variable {script : Script} {v v' : Sight}

/-- A script that takes the current token does so for who knows more. -/
theorem Takes.mono (h : script.Takes v) (hv : v.Le v') : script.Takes v' := by
  induction script generalizing v v' with
  | complain x next ih => exact ih h hv.blame
  | bump next => exact ⟨hv.blamed h.1, h.2⟩
  | call rule next =>
    cases rule with
    | skipTo stops =>
      obtain ⟨hblamed, hgoing, ⟨k, hk, hstops⟩, hnext⟩ := h
      exact ⟨hv.blamed hblamed, hv.going hgoing, ⟨k, hv.kind k hk, hstops⟩, hnext⟩
    | _ => exact h.elim
  | _ => exact h.elim

/-- It does no harm to know more. -/
theorem Accounts.mono (h : script.Accounts v) (hv : v.Le v') : script.Accounts v' := by
  induction script generalizing v v' with
  | done | fail => trivial
  | look n next ih => exact fun k => ih k (h k) (hv.see n k)
  | text next ih | exhausted next ih => exact fun b => ih b (h b) hv
  | stopped next ih => exact fun b => ih b (h b) (hv.ask b)
  | bump next => exact h
  | flush next ih => exact ih h hv
  | complain x next ih => exact ⟨h.1, ih h.2 hv.blame⟩
  | remark problem next ih => exact ⟨h.1, ih h.2 hv⟩
  | node kind body next ihbody =>
    obtain ⟨herror, hliteral, hbody, hnext⟩ := h
    refine ⟨fun hk => ?_, fun hk => ?_, ihbody hbody hv, hnext⟩
    · exact ⟨hv.isSome (herror hk).1, (herror hk).2.mono hv⟩
    · exact ⟨hv.isSome (hliteral hk).1, (hliteral hk).2⟩
  | group body next ihbody | deeper body next ihbody => exact ⟨ihbody h.1 hv, h.2⟩
  | wrap kind body next ihbody => exact ⟨h.1, h.2.1, ihbody h.2.2.1 hv, h.2.2.2⟩
  | enclosed d construct ifEmpty body next => exact h
  | call rule next => exact h

/-- What is accounted for by who knows nothing is so for anyone. -/
private theorem Accounts.of_blank (h : script.Accounts .blank) : script.Accounts v :=
  h.mono (Sight.blank_le v)

end Script

namespace Fragment

variable {α β : Type} {v : Sight}

/-! ## Sweeping -/

/-- A script that is done consumes nothing. -/
@[simp] theorem sweeps_done {answer : Bool} : (Script.done answer).Sweeps ↔ True := Iff.rfl

/-- Fragments in sequence sweep if they do together. -/
@[simp] theorem sweeps_bind (m : Fragment α) (f : α → Fragment β) (next : β → Script) :
    ((m >>= f) next).Sweeps ↔ (m fun a => f a next).Sweeps := Iff.rfl

/-- Handing on a value makes no node. -/
@[simp] theorem sweeps_pure (a : α) (next : α → Script) :
    ((pure a : Fragment α) next).Sweeps ↔ (next a).Sweeps := Iff.rfl

/-- A choice sweeps if the branch does that is taken. -/
@[simp] theorem sweeps_ite (c : Prop) [Decidable c] (m n : Fragment α) (next : α → Script) :
    ((if c then m else n) next).Sweeps ↔ if c then (m next).Sweeps else (n next).Sweeps := by
  split <;> rfl

/-- Asking for the end makes no node. -/
@[simp] theorem sweeps_stopped (next : Bool → Script) :
    (stopped next).Sweeps ↔ ∀ b, (next b).Sweeps := Iff.rfl

/-- A token is swept aside. -/
@[simp] theorem sweeps_bump (next : Unit → Script) : (bump next).Sweeps ↔ (next ()).Sweeps :=
  Iff.rfl

/-- Testing for a kind makes no node. -/
@[simp] theorem sweeps_isAt (k : Kind) (next : Bool → Script) :
    (isAt k next).Sweeps ↔ ∀ k', (next (k' == k)).Sweeps := Iff.rfl

/-- Testing for a set makes no node. -/
@[simp] theorem sweeps_isAtAny (set : TokenSet) (next : Bool → Script) :
    (isAtAny set next).Sweeps ↔ ∀ k, (next (set.contains k)).Sweeps := Iff.rfl

/-- A rule may be called if it only sweeps. -/
@[simp] theorem sweeps_call (rule : Rule) (next : Unit → Script) :
    (call rule next).Sweeps ↔ rule.sweeps = true ∧ (next ()).Sweeps := by
  simp [call, Script.Sweeps]

/-- A token that is eaten is swept aside. -/
@[simp] theorem sweeps_optionally (k : Kind) (next : Unit → Script) :
    (optionally k next).Sweeps ↔ (next ()).Sweeps := by
  simp [optionally, eat]

/-! ## Steps -/

/-- A script that is done makes no node. -/
@[simp] theorem accounts_done {answer : Bool} : (Script.done answer).Accounts v ↔ True := Iff.rfl

/-- Fragments in sequence are walked through in sequence. -/
@[simp] theorem accounts_bind (m : Fragment α) (f : α → Fragment β) (next : β → Script) :
    ((m >>= f) next).Accounts v ↔ (m fun a => f a next).Accounts v := Iff.rfl

/-- Handing on a value makes no node. -/
@[simp] theorem accounts_pure (a : α) (next : α → Script) :
    ((pure a : Fragment α) next).Accounts v ↔ (next a).Accounts v := Iff.rfl

/-- The branch that is taken is walked through. -/
@[simp] theorem accounts_ite (c : Prop) [Decidable c] (m n : Fragment α) (next : α → Script) :
    ((if c then m else n) next).Accounts v ↔
      if c then (m next).Accounts v else (n next).Accounts v := by
  split <;> rfl

/-- A lookahead may tell the kind of the current token. -/
@[simp] theorem accounts_ahead (n : Nat) (next : Kind → Script) :
    (ahead n next).Accounts v ↔ ∀ k, (next k).Accounts (v.see n k) := Iff.rfl

/-- The current token has been seen. -/
@[simp] theorem accounts_current (next : Kind → Script) :
    (current next).Accounts v ↔ ∀ k, (next k).Accounts { v with kind := some k } := Iff.rfl

/-- The text tells nothing that is kept track of. -/
@[simp] theorem accounts_currentText (next : String → Script) :
    (currentText next).Accounts v ↔ ∀ t, (next t).Accounts v := Iff.rfl

/-- A parse that goes on has a current token. -/
@[simp] theorem accounts_stopped (next : Bool → Script) :
    (stopped next).Accounts v ↔ ∀ b, (next b).Accounts (v.ask b) := Iff.rfl

/-- Whether steps are left tells nothing about the current token. -/
@[simp] theorem accounts_exhausted (next : Bool → Script) :
    (exhausted next).Accounts v ↔ ∀ b, (next b).Accounts v := Iff.rfl

/-- The next token has not been seen. -/
@[simp] theorem accounts_bump (next : Unit → Script) :
    (bump next).Accounts v ↔ (next ()).Accounts .blank := Iff.rfl

/-- Flushing keeps what is known of the current token. -/
@[simp] theorem accounts_flush (next : Unit → Script) :
    (flush next).Accounts v ↔ (next ()).Accounts v := Iff.rfl

/-- The current token has been complained about. -/
@[simp] theorem accounts_complain (problem : Problem) (detail expected : Option String)
    (next : Unit → Script) : (complain problem detail expected next).Accounts v ↔
      problem.isComplaint = true ∧ (next ()).Accounts v.blame := Iff.rfl

/-- The current token has been complained about. -/
@[simp] theorem accounts_missing (problem : Problem) (what : String) (next : Unit → Script) :
    (missing problem what next).Accounts v ↔
      problem.isComplaint = true ∧ (next ()).Accounts v.blame := Iff.rfl

/-- A warning is about the token that is consumed next, so no error node follows. -/
@[simp] theorem accounts_remark (problem : Problem) (next : Unit → Script) :
    (remark problem next).Accounts v ↔ (next ()).isBump = true ∧ (next ()).Accounts v := Iff.rfl

/-- An error node consumes a token that was blamed, and a literal one that was seen. -/
@[simp] theorem accounts_node (k : Kind) (body : Fragment Unit) (next : Unit → Script) :
    (node k body next).Accounts v ↔
      (k = .error → v.kind.isSome = true ∧ body.unit.Takes v) ∧
        (k = .literal → v.kind.isSome = true ∧ body.unit = .bump (.done true)) ∧
          body.unit.Accounts v ∧ (next ()).Accounts .blank := Iff.rfl

/-- What is known goes into the group, and nothing is known after it. -/
@[simp] theorem accounts_group (body : Fragment Unit) (next : Unit → Script) :
    (group body next).Accounts v ↔ body.unit.Accounts v ∧ (next ()).Accounts .blank := Iff.rfl

/-- What wraps is neither an error nor a literal. -/
@[simp] theorem accounts_wrap (k : Kind) (body : Fragment Unit) (next : Unit → Script) :
    (wrap k body next).Accounts v ↔
      k ≠ .error ∧ k ≠ .literal ∧ body.unit.Accounts v ∧ (next ()).Accounts .blank := Iff.rfl

/-- A level that is refused ends the parse, so nothing follows it. -/
@[simp] theorem accounts_deeper (body : Fragment Unit) (next : Bool → Script) :
    (deeper body next).Accounts v ↔ body.unit.Accounts v ∧ (next true).Accounts .blank := Iff.rfl

/-- Behind a delimiter nothing is known of the next token. -/
@[simp] theorem accounts_enclosed (d : Delimiter) (construct : String) (body : Fragment Unit)
    (next : Unit → Script) : (enclosed d construct body next).Accounts v ↔
      body.unit.Accounts .blank ∧ (next ()).Accounts .blank := Iff.rfl

/-- As `accounts_enclosed`. -/
@[simp] theorem accounts_enclosedNonempty (d : Delimiter) (construct : String) (ifEmpty : Problem)
    (body : Fragment Bool) (next : Unit → Script) :
    (enclosedNonempty d construct ifEmpty body next).Accounts v ↔
      body.script.Accounts .blank ∧ (next ()).Accounts .blank := Iff.rfl

/-- Behind a rule nothing is known of the next token. -/
@[simp] theorem accounts_ask (rule : Rule) (next : Bool → Script) :
    (ask rule next).Accounts v ↔ ∀ a, (next a).Accounts .blank := Iff.rfl

/-- Behind a rule nothing is known of the next token. -/
@[simp] theorem accounts_call (rule : Rule) (next : Unit → Script) :
    (call rule next).Accounts v ↔ (next ()).Accounts .blank := by
  simp [call, Script.Accounts]

/-! ## Combinations -/

/-- The current token has been seen, whichever it is. -/
@[simp] theorem accounts_isAt (k : Kind) (next : Bool → Script) :
    (isAt k next).Accounts v ↔ ∀ k', (next (k' == k)).Accounts { v with kind := some k' } := Iff.rfl

/-- The current token has been seen, whichever it is. -/
@[simp] theorem accounts_isAtAny (set : TokenSet) (next : Bool → Script) :
    (isAtAny set next).Accounts v ↔
      ∀ k, (next (set.contains k)).Accounts { v with kind := some k } := Iff.rfl

/-- Either nothing is known of the next token, or the current one has been seen. -/
@[simp] theorem accounts_eat (k : Kind) (next : Bool → Script) :
    (eat k next).Accounts v ↔ ∀ k', if k' = k then (next true).Accounts .blank
      else (next false).Accounts { v with kind := some k' } := by
  simp [eat]

/-- What follows an optional token need not know whether it was there. -/
@[simp] theorem accounts_optionally (k : Kind) (next : Unit → Script) :
    (optionally k next).Accounts v ↔ (next ()).Accounts .blank := by
  simp only [optionally, accounts_bind, accounts_eat, accounts_pure]
  refine ⟨fun h => by simpa using h k, fun h k' => ?_⟩
  split
  · exact h
  · exact h.of_blank

/-- A kind that is missing is complained about at the current token. -/
@[simp] theorem accounts_expect (k : Kind) (what : String) (next : Bool → Script) :
    (expect k what next).Accounts v ↔ (next true).Accounts .blank ∧ ∀ k', k' ≠ k →
      (next false).Accounts { kind := some k', going := v.going, blamed := true } := by
  simp only [expect, accounts_bind, accounts_eat, accounts_pure, accounts_complain, ↓reduceIte,
    Bool.false_eq_true]
  constructor
  · refine fun h => ⟨by simpa using h k, fun k' hk => ?_⟩
    have hfalse := h k'
    rw [if_neg hk] at hfalse
    exact hfalse.2
  · intro h k'
    split
    · exact h.1
    · next hk => exact ⟨rfl, h.2 k' hk⟩

/-- What follows a kind that is required need know nothing. -/
@[simp] theorem accounts_require (k : Kind) (what : String) (next : Unit → Script) :
    (require k what next).Accounts v ↔ (next ()).Accounts .blank := by
  simp only [require, accounts_bind, accounts_expect, accounts_pure]
  exact ⟨And.left, fun h => ⟨h, fun _ _ => h.of_blank⟩⟩

/-- What follows a name that is required need know nothing. -/
@[simp] theorem accounts_identifier (what : String) (next : Unit → Script) :
    (identifier what next).Accounts v ↔ (next ()).Accounts .blank := by
  simp only [identifier, accounts_bind, accounts_eat, accounts_ite, accounts_missing, accounts_pure]
  refine ⟨fun h => by simpa using h .identifier, fun h k' => ?_⟩
  split
  · exact h
  · exact ⟨rfl, h.of_blank⟩

/-- The rule begins with a token that has been seen. -/
@[simp] theorem accounts_entered (k : Kind) (next : Unit → Script) :
    (entered k next).Accounts v ↔ (next ()).Accounts { v with kind := some k } := by
  show (∀ found, (if found = k then next () else .fail _ : Script).Accounts (v.see 0 found)) ↔ _
  refine ⟨fun h => by simpa [Sight.see] using h k, fun h found => ?_⟩
  split
  · next hk => exact hk ▸ h
  · trivial

/-- A token may be set aside once it was seen. -/
@[simp] theorem accounts_setAside (problem : Problem) (what : String) (stops : TokenSet)
    (rest : Fragment Unit) (next : Unit → Script) :
    (setAside problem what stops rest next).Accounts v ↔
      v.kind.isSome = true ∧ problem.isComplaint = true ∧ rest.unit.Sweeps ∧
        rest.unit.Accounts .blank ∧ (next ()).Accounts .blank := by
  have htakes : (do
      missing problem what
      bump
      call (.discard stops)
      rest : Fragment Unit).unit.Takes v ↔ rest.unit.Sweeps := by
    simp [unit, missing, complain, bump, call, bind, Script.Takes, Script.Sweeps, Sight.blame,
      Rule.sweeps]
  rw [setAside, accounts_node, htakes]
  simp [unit, and_assoc, and_left_comm]

end Fragment

/-! ## Parts of rules -/

/-- A rule that sweeps goes on by calling itself. -/
theorem Rule.script_sweeps {rule : Rule} (h : rule.sweeps = true) : rule.script.Sweeps := by
  cases rule with
  | discard stops => simp [script, Grammar.discard, Fragment.unit, sweeps]
  | skipTo stops => simp [script, Grammar.skipTo, Fragment.unit, sweeps]
  | _ => cases h

namespace Grammar

open Fragment

variable {v : Sight}

/-- What a member declares, after its modifiers. -/
private theorem accounts_declaration (k : Kind) :
    ((match k with
      | .kwFunction => do
        call .fnDecl
        optionally .semiColon
      | .identifier => do
        attrDecl
        optionally .semiColon
      | _ => do
        missing .expectedIdentifier "an attribute or function declaration"
        optionally .semiColon : Fragment Unit) fun _ => .done true).Accounts v := by
  split <;> simp +decide [attrDecl, ascription, unit]

/-- The look at whether a function literal begins is followed by what need know nothing. -/
private theorem accounts_atFnLiteral {next : Bool → Script} (h : ∀ b, (next b).Accounts .blank) :
    (atFnLiteral next).Accounts v := by
  simp only [atFnLiteral, accounts_bind, accounts_ahead]
  intro k
  split
  case h_2 =>
    simp only [accounts_bind, accounts_ahead, accounts_ite, accounts_pure]
    intro k'
    split
    · exact fun _ => (h _).of_blank
    · exact (h _).of_blank
  all_goals exact (h _).of_blank

/-- The look at which accessor comes is followed by what need know nothing. -/
private theorem accounts_accessorHere {next : Option Accessor → Script}
    (h : ∀ a, (next a).Accounts .blank) : (accessorHere next).Accounts v := by
  simp only [accessorHere, accounts_bind, accounts_current]
  intro k
  split
  case h_2 =>
    simp only [accounts_bind, accounts_ahead, accounts_ite, accounts_pure]
    intro k'
    split
    · exact (h _).of_blank
    · exact (h _).of_blank
  all_goals exact (h _).of_blank

/-- The name behind a dot makes no error node that is unaccounted for. -/
@[simp] theorem accounts_memberName (after : String) {next : Unit → Script} :
    (memberName after next).Accounts v ↔ (next ()).Accounts .blank := by
  simp only [memberName, accounts_bind, accounts_isAtAny, accounts_ite, accounts_bump,
    accounts_missing]
  refine ⟨fun h => h .identifier, fun h k => ?_⟩
  split
  · exact h
  · exact ⟨rfl, h.of_blank⟩

/-- An accessor makes no error node that is unaccounted for. -/
private theorem accounts_accessor (a : Accessor) {next : Unit → Script}
    (h : (next ()).Accounts .blank) : (accessor a next).Accounts v := by
  cases a <;> simp [accessor, Accessor.kind, delimited, unit, h]

/-- What stands in place of a name is set aside if it is not what may follow the name. -/
private theorem accounts_missingVariable {next : Unit → Script} (h : (next ()).Accounts .blank) :
    (missingVariable next).Accounts v := by
  have hproblem : Problem.expectedIdentifier.isComplaint = true := rfl
  simp only [missingVariable, accounts_bind, accounts_isAtAny, accounts_ite, accounts_missing,
    accounts_stopped, hproblem, true_and]
  intro k
  split
  · exact h.of_blank
  · next hk =>
    intro b
    cases b with
    | true => exact h.of_blank
    | false =>
      simp only [Bool.false_eq_true, ↓reduceIte, accounts_node, unit, accounts_bind,
        accounts_missing, accounts_call, accounts_done, hproblem, h, reduceCtorEq, false_imp_iff,
        and_true]
      exact fun _ => ⟨rfl, rfl, rfl, ⟨k, rfl, by simpa using hk⟩, fun _ => trivial⟩

/-- A declaration of a variable makes no error node that is unaccounted for. -/
private theorem accounts_varStmt : (varStmt fun _ => .done true).Accounts v := by
  have htail : ((do
      if ← eat .colon then call .typeList
      if ← isAt .eq then call .initializer
      optionally .semiColon : Fragment Unit) fun _ => .done true).Accounts .blank := by
    simp
  rw [varStmt, accounts_node, unit, accounts_bind, accounts_bump, accounts_bind, accounts_eat]
  refine ⟨by simp, by simp, fun j => ?_, trivial⟩
  split
  · exact htail
  · exact accounts_missingVariable htail

end Grammar

/-! ## The rules

One lemma for each rule. -/

private theorem Rule.accounts_program : Rule.program.script.Accounts .blank := by
  simp [script, Grammar.program, Fragment.unit]

private theorem Rule.accounts_imports : Rule.imports.script.Accounts .blank := by
  simp [script, Grammar.imports, Fragment.unit]

private theorem Rule.accounts_items : Rule.items.script.Accounts .blank := by
  simp [script, Grammar.items, Fragment.unit]

private theorem Rule.accounts_item : Rule.item.script.Accounts .blank := by
  simp only [script, Grammar.item, Fragment.unit, Fragment.accounts_bind,
    Fragment.accounts_current]
  intro k
  split <;> simp +decide [Fragment.unit]

private theorem Rule.accounts_importDecl : Rule.importDecl.script.Accounts .blank := by
  simp +decide [script, Grammar.importDecl, Fragment.unit]

private theorem Rule.accounts_fnDecl : Rule.fnDecl.script.Accounts .blank := by
  simp [script, Grammar.fnDecl, Fragment.unit]

private theorem Rule.accounts_fnTail : Rule.fnTail.script.Accounts .blank := by
  simp [script, Grammar.fnTail, Grammar.delimited, Fragment.unit]

private theorem Rule.accounts_param : Rule.param.script.Accounts .blank := by
  simp [script, Grammar.param, Grammar.ascription, Fragment.unit]

private theorem Rule.accounts_typeDecl : Rule.typeDecl.script.Accounts .blank := by
  simp [script, Grammar.typeDecl, Fragment.unit]

private theorem Rule.accounts_members : Rule.members.script.Accounts .blank := by
  simp only [script, Grammar.members, Fragment.unit, Fragment.accounts_bind,
    Fragment.accounts_stopped, Fragment.accounts_ite, Fragment.accounts_current]
  intro stopped
  split
  · trivial
  intro k
  split <;> simp +decide [Fragment.unit]

private theorem Rule.accounts_member : Rule.member.script.Accounts .blank := by
  simp only [script, Grammar.typeMember, Fragment.unit, Fragment.accounts_node,
    Fragment.accounts_bind, Fragment.accounts_current]
  refine ⟨by simp, by simp, fun k => ?_, trivial⟩
  split <;>
    simp only [Fragment.accounts_bind, Fragment.accounts_bump, Fragment.accounts_optionally,
      Fragment.accounts_current] <;>
    exact fun k => Grammar.accounts_declaration k

private theorem Rule.accounts_statements (seen : Bool) :
    (Rule.statements seen).script.Accounts .blank := by
  simp only [script, Grammar.statements, Fragment.script, Fragment.accounts_bind,
    Fragment.accounts_stopped, Fragment.accounts_ite, Fragment.accounts_current]
  intro stopped
  split
  · trivial
  intro k
  split <;> simp +decide [Grammar.recoverStatement, Fragment.unit]

private theorem Rule.accounts_statement : Rule.statement.script.Accounts .blank := by
  simp only [script, Grammar.statement, Fragment.unit, Fragment.accounts_bind,
    Fragment.accounts_deeper, Fragment.accounts_current]
  refine ⟨fun k => ?_, trivial⟩
  split
  case h_5 => exact Grammar.accounts_varStmt
  all_goals
    simp +decide [Grammar.atRecordBody, Grammar.exprStmt, Grammar.whileStmt, Grammar.forStmt,
      Grammar.returnStmt, Grammar.recoverStatement, Grammar.condition, Fragment.unit]

private theorem Rule.accounts_block : Rule.block.script.Accounts .blank := by
  simp [script, Grammar.block, Fragment.unit, Fragment.script]

private theorem Rule.accounts_body : Rule.body.script.Accounts .blank := by
  simp [script, Grammar.body, Fragment.unit]

private theorem Rule.accounts_ifStmt (terminated : Bool) :
    (Rule.ifStmt terminated).script.Accounts .blank := by
  simp [script, Grammar.ifStmt, Grammar.condition, Fragment.unit]

private theorem Rule.accounts_initializer : Rule.initializer.script.Accounts .blank := by
  simp [script, Grammar.initializer, Fragment.unit]

private theorem Rule.accounts_expr : Rule.expr.script.Accounts .blank := by
  simp +decide [script, Grammar.expr, Fragment.unit]

private theorem Rule.accounts_chain : Rule.chain.script.Accounts .blank := by
  simp +decide [script, Grammar.chain, Grammar.unary, Fragment.unit]

private theorem Rule.accounts_prefixes (count : Nat) :
    (Rule.prefixes count).script.Accounts .blank := by
  simp +decide [script, Grammar.prefixes, Grammar.prefixOperand, Fragment.unit]

private theorem Rule.accounts_operand : Rule.operand.script.Accounts .blank := by
  simp [script, Grammar.operand, Grammar.member, Fragment.unit]

private theorem Rule.accounts_accessors (wrapped : Bool) :
    (Rule.accessors wrapped).script.Accounts .blank := by
  simp only [script, Grammar.accessors, Fragment.unit, Fragment.accounts_bind]
  refine Grammar.accounts_accessorHere fun a => ?_
  cases a with
  | none => trivial
  | some a =>
    have hmore : (Grammar.accessor a fun _ =>
        Fragment.call (.accessors true) fun _ => .done true).Accounts .blank :=
      Grammar.accounts_accessor a (by simp)
    cases wrapped with
    | true => exact hmore
    | false => exact ⟨by decide, by decide, hmore, trivial⟩

private theorem Rule.accounts_primary : Rule.primary.script.Accounts .blank := by
  simp only [script, Grammar.primary, Fragment.unit, Fragment.accounts_bind,
    Fragment.accounts_current]
  intro k
  split
  case h_5 => exact Grammar.accounts_atFnLiteral fun b => by cases b <;> simp [Fragment.unit]
  case h_6 =>
    simp only [Fragment.accounts_ite, Fragment.accounts_node, Fragment.accounts_missing]
    split
    · exact ⟨fun h => absurd h (by decide), fun _ => ⟨rfl, rfl⟩, trivial, trivial⟩
    · exact ⟨rfl, trivial⟩
  all_goals simp [Grammar.namePrimary, Grammar.delimited, Fragment.unit]

private theorem Rule.accounts_elements (form : ListForm) :
    (Rule.elements form).script.Accounts .blank := by
  have hproblem : form.problem.isComplaint = true := by cases form <;> rfl
  simp only [script, Grammar.elements, Fragment.unit, Fragment.accounts_bind,
    Fragment.accounts_stopped, Fragment.accounts_ite, Fragment.accounts_current]
  intro stopped
  split
  · trivial
  intro k
  split
  · trivial
  split
  · simp
  split
  · trivial
  · rw [Fragment.accounts_missing, Fragment.accounts_bind, Fragment.accounts_node]
    exact ⟨hproblem, fun _ => ⟨rfl, rfl, trivial⟩, by simp, by simp [Fragment.unit],
      by simp⟩

private theorem Rule.accounts_recordProp : Rule.recordProp.script.Accounts .blank := by
  simp [script, Grammar.recordProp, Fragment.unit]

private theorem Rule.accounts_typeList : Rule.typeList.script.Accounts .blank := by
  simp [script, Grammar.typeList, Fragment.unit]

private theorem Rule.accounts_unionTail : Rule.unionTail.script.Accounts .blank := by
  simp [script, Grammar.unionTail, Fragment.unit]

private theorem Rule.accounts_typeName : Rule.typeName.script.Accounts .blank := by
  simp +decide [script, Grammar.typeName, Grammar.typeArgs, Fragment.unit]

private theorem Rule.accounts_typeArgTail : Rule.typeArgTail.script.Accounts .blank := by
  simp [script, Grammar.typeArgTail, Fragment.unit]

private theorem Rule.accounts_discard (stops : TokenSet) :
    (Rule.discard stops).script.Accounts .blank := by
  simp [script, Grammar.discard, Fragment.unit]

private theorem Rule.accounts_skipTo (stops : TokenSet) :
    (Rule.skipTo stops).script.Accounts .blank := by
  simp [script, Grammar.skipTo, Fragment.unit]

/-- No rule makes an error node without a complaint about the token that it begins with. -/
theorem Rule.accounts (rule : Rule) : rule.script.Accounts .blank := by
  -- One lemma for each rule.
  cases rule with
  | program => exact accounts_program
  | imports => exact accounts_imports
  | items => exact accounts_items
  | item => exact accounts_item
  | importDecl => exact accounts_importDecl
  | fnDecl => exact accounts_fnDecl
  | fnTail => exact accounts_fnTail
  | param => exact accounts_param
  | typeDecl => exact accounts_typeDecl
  | members => exact accounts_members
  | member => exact accounts_member
  | statements seen => exact accounts_statements seen
  | statement => exact accounts_statement
  | block => exact accounts_block
  | body => exact accounts_body
  | ifStmt terminated => exact accounts_ifStmt terminated
  | initializer => exact accounts_initializer
  | expr => exact accounts_expr
  | chain => exact accounts_chain
  | prefixes count => exact accounts_prefixes count
  | operand => exact accounts_operand
  | accessors wrapped => exact accounts_accessors wrapped
  | primary => exact accounts_primary
  | elements form => exact accounts_elements form
  | recordProp => exact accounts_recordProp
  | typeList => exact accounts_typeList
  | unionTail => exact accounts_unionTail
  | typeName => exact accounts_typeName
  | typeArgTail => exact accounts_typeArgTail
  | discard stops => exact accounts_discard stops
  | skipTo stops => exact accounts_skipTo stops

end ScriptTree
